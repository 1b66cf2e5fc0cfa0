import PtzAgx.Alink.Order
import PtzAgx.Alink.Upload
import PtzAgx.Lib.Enroll

/-! # Registering commands and packages

`alink_register_cmd` and `alink_register_package` of `alink.c` with what they
call. The node brings its own link, and both functions clear it before the list
code looks whether the node is listed. Calls name a node; what it is registered
with is the same at every call. The mutexes are left out.
-/

namespace PtzAgx.Alink

open Bytes Intrusive

variable {ν : Type} [DecidableEq ν]

/-- A search through the chain stops at the node that was registered first for
    the id. -/
theorem found_first {ρ : Type} (id : ρ → UInt8) (record : ν → ρ) {made : List ν} {node : ν}
    (member : node ∈ made) :
    ∃ first ∈ made, id (record first) = id (record node) ∧
      ((firsts made).map record).find? (fun r => id r == id (record node)) =
      some (record first) := by
  have listed : node ∈ firsts made := mem_firsts.mpr member
  have same : (id (record node) == id (record node)) = true := beq_self_eq_true _
  cases found : (firsts made).find? fun x => id (record x) == id (record node) with
  | none => exact absurd same (List.find?_eq_none.mp found node listed)
  | some first =>
      have matching := List.find?_some (p := fun x => id (record x) == id (record node)) found
      refine ⟨first, mem_firsts.mp (List.mem_of_find?_eq_some found), eq_of_beq matching, ?_⟩
      rw [List.find?_map]
      exact congrArg (Option.map record) found

/-! ## Commands -/

section Commands

variable {σ : Type}

/-- The chains of both orders. `psNext` and `cmd` are the link and the rest of
    every `alink_cmd_list_t` there is. -/
structure CmdTables (ν σ : Type) where
  psCmdList : AlinkOrderRef → Option ν
  psNext : ν → Option ν
  cmd : ν → AlinkCmdList σ

/-- `RET_VALUE_INVALID_PARM`. -/
def retValueInvalidParm : Int := -4

/-- `ALINK_USER_TYPE_C2` and `ALINK_USER_TYPE_DEVICE`. -/
def AlinkOrderRef.userType : AlinkOrderRef → UInt8
  | .sOrder => 0
  | .sOrderServer => 1

/-- The order for a `cmd_type`. -/
def alinkUserOrder (cmdType : UInt8) : Option AlinkOrderRef :=
  if AlinkOrderRef.userType .sOrder = cmdType then some .sOrder
  else if AlinkOrderRef.userType .sOrderServer = cmdType then some .sOrderServer
  else none

def CmdTables.links (t : CmdTables ν σ) (psOrder : AlinkOrderRef) : Links ν where
  head := t.psCmdList psOrder
  next := t.psNext

def alinkOrderRegisterCmd (fuel : Nat) (psOrder : AlinkOrderRef) (t : CmdTables ν σ)
    (psCmdList : ν) :
    Option (CmdTables ν σ) :=
  ((t.links psOrder).append fuel psCmdList).map fun links =>
    { t with psCmdList := Function.update t.psCmdList psOrder links.head, psNext := links.next }

/-- `cmdType` is that of the node, which the caller has set. -/
def alinkRegisterCmd (fuel : Nat) (t : CmdTables ν σ) (psCmdList : ν) (cmdType byOrder : UInt8)
    (wPayloadLen : Nat)
    (pvCmdTask : Option (AlinkPayload → AlinkResp → σ → AlinkResp × σ)) :
    Option (Int × CmdTables ν σ) :=
  let t :=
    { t with
      cmd := Function.update t.cmd psCmdList { byCmd := byOrder, wPayloadLen, pvCmdTask }
      psNext := Function.update t.psNext psCmdList none }
  match alinkUserOrder cmdType with
  | some psOrder => (alinkOrderRegisterCmd fuel psOrder t psCmdList).map fun t => (0, t)
  | none => some (retValueInvalidParm, t)

/-- No node is registered, and the nodes are the zeros they are declared as. -/
def noCmds : CmdTables ν σ where
  psCmdList := fun _ => none
  psNext := fun _ => none
  cmd := fun _ => { byCmd := 0, wPayloadLen := 0, pvCmdTask := none }

variable (psOrder : AlinkOrderRef) (registered : ν → AlinkCmdList σ)

/-- A call for a node of this order that returns. -/
def RegistersCmd (t : CmdTables ν σ) (node : ν) (t' : CmdTables ν σ) : Prop :=
  ∃ fuel, alinkRegisterCmd fuel t node psOrder.userType (registered node).byCmd
    (registered node).wPayloadLen
    (registered node).pvCmdTask = some (0, t')

/-- The chain holds the nodes in order of first registration, and a message finds
    the command that was registered first for its id. -/
structure CmdsKept (made : List ν) (t : CmdTables ν σ) : Prop where
  chain : (t.links psOrder).Holds (firsts made)
  found : ∀ node ∈ made, ∃ first ∈ made, (registered first).byCmd = (registered node).byCmd ∧
    ((firsts made).map t.cmd).find? (fun psCmdList => psCmdList.byCmd == (registered node).byCmd) =
      some (registered first)

section Runs

variable {psOrder} {registered} {t t' : CmdTables ν σ} {node : ν} {made : List ν}

theorem alinkUserOrder_userType (psOrder : AlinkOrderRef) :
    alinkUserOrder psOrder.userType = some psOrder := by
  cases psOrder <;> rfl

theorem registersCmd_iff : RegistersCmd psOrder registered t node t' ↔
    ∃ fuel links, (t.links psOrder).enroll fuel node = some links ∧
      { psCmdList := Function.update t.psCmdList psOrder links.head, psNext := links.next
        cmd := Function.update t.cmd node (registered node) } = t' := by
  refine exists_congr fun fuel => ?_
  have enrolled : CmdTables.links
      { t with cmd := Function.update t.cmd node (registered node),
               psNext := Function.update t.psNext node none } psOrder =
        { t.links psOrder with next := Function.update (t.links psOrder).next node none } := rfl
  simp only [alinkRegisterCmd, alinkUserOrder_userType, alinkOrderRegisterCmd, enrolled,
    Links.enroll, Option.map_map,
    Option.map_eq_some_iff, Function.comp_apply, Prod.mk.injEq, true_and]

theorem registersCmd_enrolls :
    Enrolls (RegistersCmd psOrder registered) fun t => t.links psOrder where
  enrolls called := by
    obtain ⟨fuel, links, returned, rfl⟩ := registersCmd_iff.mp called
    exact ⟨fuel, returned.trans (congrArg some (by simp [CmdTables.links]))⟩
  returns fuel node returned := ⟨_, registersCmd_iff.mpr ⟨fuel, _, returned, rfl⟩⟩

theorem registersCmd_records (run : Run (RegistersCmd psOrder registered) noCmds made t) :
    ∀ node ∈ made, t.cmd node = registered node := by
  induction run with
  | start => exact fun node member => absurd member List.not_mem_nil
  | @call made s last s' _ called ih =>
      obtain ⟨fuel, links, -, rfl⟩ := registersCmd_iff.mp called
      intro node member
      by_cases same : node = last
      · rw [same]
        exact Function.update_self _ _ _
      · have early : node ∈ made := by simpa [same] using member
        exact (Function.update_of_ne same _ _).trans (ih node early)

theorem cmdsKept_of_chain (run : Run (RegistersCmd psOrder registered) noCmds made t)
    (chain : (t.links psOrder).Holds (firsts made)) : CmdsKept psOrder registered made t where
  chain := chain
  found node member := by
    have records := registersCmd_records run
    have same : (firsts made).map t.cmd = (firsts made).map registered :=
      List.map_congr_left fun x listed => records x (mem_firsts.mp listed)
    rw [same]
    exact found_first AlinkCmdList.byCmd registered member

end Runs

end Commands

/-! ## Packages -/

section Packages

variable {ι μ : Type}

/-- The chain of the upload. `psNext` and `package` are the link and the rest of
    every `alink_package_list_t` there is. -/
structure PackageTable (ν ι μ : Type) where
  psPackageList : Option ν
  psNext : ν → Option ν
  package : ν → AlinkPackageList ι μ

/-- The arguments a package is registered with. -/
structure PackageArgs (ι : Type) where
  byMsgId : UInt8
  byAns : UInt8
  pwPackageTask : Option (Ptr UInt8 → Nat → ι → Ptr UInt8 × UInt16)

def PackageTable.links (u : PackageTable ν ι μ) : Links ν where
  head := u.psPackageList
  next := u.psNext

/-- The subscribers stay as they are. -/
def alinkPackageInit (u : PackageTable ν ι μ) (psPackage : ν) (args : PackageArgs ι) :
    PackageTable ν ι μ :=
  let package :=
    { u.package psPackage with byMsgId := args.byMsgId, byAns := args.byAns,
                               pwPackageTask := args.pwPackageTask }
  { u with
    package := Function.update u.package psPackage package
    psNext := Function.update u.psNext psPackage none }

def alinkUploadRegisterPackage (fuel : Nat) (u : PackageTable ν ι μ) (psPackageList : ν) :
    Option (PackageTable ν ι μ) :=
  (u.links.append fuel psPackageList).map fun links =>
    { u with psPackageList := links.head, psNext := links.next }

def alinkRegisterPackage (fuel : Nat) (u : PackageTable ν ι μ) (psPackageList : ν)
    (args : PackageArgs ι) :
    Option (PackageTable ν ι μ) :=
  alinkUploadRegisterPackage fuel (alinkPackageInit u psPackageList args) psPackageList

def noPackages : PackageTable ν ι μ where
  psPackageList := none
  psNext := fun _ => none
  package :=
    fun _ => { byMsgId := 0, byAns := 0, pwPackageTask := none,
               psSendList := { head := none, next := fun _ => none } }

variable (args : ν → PackageArgs ι)

def RegistersPackage (u : PackageTable ν ι μ) (node : ν) (u' : PackageTable ν ι μ) : Prop :=
  ∃ fuel, alinkRegisterPackage fuel u node (args node) = some u'

/-- The chain holds the nodes in order of first registration, and an id finds the
    task that was registered first for it. -/
structure PackagesKept (made : List ν) (u : PackageTable ν ι μ) : Prop where
  chain : u.links.Holds (firsts made)
  found : ∀ node ∈ made, ∃ first ∈ made, (args first).byMsgId = (args node).byMsgId ∧ ∃ psPackage,
    ((firsts made).map u.package).find?
    (fun psPackage => psPackage.byMsgId == (args node).byMsgId) = some psPackage ∧
      psPackage.byAns = (args first).byAns ∧ psPackage.pwPackageTask = (args first).pwPackageTask

section Runs

variable {args} {u u' : PackageTable ν ι μ} {node : ν} {made : List ν}

theorem registersPackage_iff : RegistersPackage args u node u' ↔
    ∃ fuel links, u.links.enroll fuel node = some links ∧
      { alinkPackageInit u node (args node) with psPackageList := links.head,
                                                 psNext := links.next } = u' := by
  refine exists_congr fun fuel => ?_
  have enrolled : (alinkPackageInit u node (args node)).links =
      { u.links with next := Function.update u.links.next node none } := rfl
  simp only [alinkRegisterPackage, alinkUploadRegisterPackage, enrolled, Links.enroll,
    Option.map_eq_some_iff]

theorem registersPackage_enrolls : Enrolls (RegistersPackage args) fun u :
    PackageTable ν ι μ => u.links where
  enrolls called := by
    obtain ⟨fuel, links, returned, rfl⟩ := registersPackage_iff.mp called
    exact ⟨fuel, returned⟩
  returns fuel node returned := ⟨_, registersPackage_iff.mpr ⟨fuel, _, returned, rfl⟩⟩

theorem registersPackage_records (run : Run (RegistersPackage args) noPackages made u) :
    ∀ node ∈ made, (u.package node).byMsgId = (args node).byMsgId ∧
      (u.package node).byAns = (args node).byAns ∧
      (u.package node).pwPackageTask = (args node).pwPackageTask := by
  induction run with
  | start => exact fun node member => absurd member List.not_mem_nil
  | @call made s last s' _ called ih =>
      obtain ⟨fuel, links, -, rfl⟩ := registersPackage_iff.mp called
      intro node member
      by_cases same : node = last
      · rw [same]
        simp [alinkPackageInit]
      · have early : node ∈ made := by simpa [same] using member
        simpa [alinkPackageInit, same] using ih node early

theorem packagesKept_of_chain (run : Run (RegistersPackage args) noPackages made u)
    (chain : u.links.Holds (firsts made)) : PackagesKept args made u where
  chain := chain
  found node member := by
    have records := registersPackage_records run
    obtain ⟨first, listed, same, found⟩ := found_first AlinkPackageList.byMsgId u.package member
    rw [(records first listed).1, (records node member).1] at same
    rw [(records node member).1] at found
    exact ⟨first, listed, same, _, found, (records first listed).2⟩

end Runs

end Packages

/-- Both chains keep what was registered, whatever is registered again, exactly in
    the runs in which only the node that was new last is. -/
theorem registration_iff {σ ι μ : Type} (psOrder : AlinkOrderRef) (registered : ν → AlinkCmdList σ)
    (args : ν → PackageArgs ι) (calls : List ν) :
    ((∀ made, made <+: calls → ∃ t, Run (RegistersCmd psOrder registered) noCmds made t ∧
        CmdsKept psOrder registered made t) ↔ NewOrLatest calls) ∧
      ((∀ made, made <+: calls → ∃ u : PackageTable ν ι μ,
        Run (RegistersPackage args) noPackages made u ∧
        PackagesKept args made u) ↔ NewOrLatest calls) := by
  constructor
  · have enrolls : Enrolls (RegistersCmd psOrder registered) fun t => t.links psOrder :=
      registersCmd_enrolls
    have empty : ((noCmds : CmdTables ν σ).links psOrder).Holds [] := rfl
    rw [← run_holds_iff enrolls empty]
    exact forall_congr' fun made => forall_congr' fun _ => exists_congr fun t =>
      and_congr_right fun run => ⟨CmdsKept.chain, cmdsKept_of_chain run⟩
  · have enrolls : Enrolls (RegistersPackage args) fun u : PackageTable ν ι μ => u.links :=
      registersPackage_enrolls
    have empty : (noPackages : PackageTable ν ι μ).links.Holds [] := rfl
    rw [← run_holds_iff enrolls empty]
    exact forall_congr' fun made => forall_congr' fun _ => exists_congr fun u =>
      and_congr_right fun run => ⟨PackagesKept.chain, packagesKept_of_chain run⟩

/-- Registering the first of two commands again drops the second. -/
theorem registration_lost : ¬ ∀ (registered : Nat → AlinkCmdList Unit) (calls : List Nat),
    ∃ t, Run (RegistersCmd .sOrder registered) noCmds calls t ∧
      CmdsKept .sOrder registered calls t := by
  intro registers
  obtain ⟨t, run, kept⟩ := registers (fun node => ⟨UInt8.ofNat node, 1, none⟩) [1, 2, 1]
  have empty : ((noCmds : CmdTables Nat Unit).links .sOrder).Holds [] := rfl
  have same := (run.holds registersCmd_enrolls empty).unique kept.chain
  exact absurd same (by decide)

end PtzAgx.Alink
