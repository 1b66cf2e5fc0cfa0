import PtzAgx.Alink.RecvStream

/-! # Reading from a C2 client

The receiving half of `c2_network/c2_network.c`. Every call reads into the same
local array and runs the receiver on it, while the receiver keeps an address
into that array from one call to the next. The array is therefore modelled as
memory that a read overwrites from the start and leaves alone behind its own
bytes. The connection's send lists are the subject of the upload modules.
-/

namespace PtzAgx.App

open Bytes Framing Alink

/-- `c2_network_t` and the local `abyBuffer` of the data callback, which lies at
    address 0. `psSocket` is `psUser->psSocket`, `piSend` says whether
    `psUser->pi_send` is set. -/
structure C2Network where
  sAlinkSocket : AlinkSocket
  psSocket : Nat
  piSend : Bool
  abyBuffer : Ptr UInt8

/-- `sizeof(abyBuffer)`. -/
def c2NetworkBufferSize : Nat := 1024 * 1024 * 1

/-- The socket as `memset` leaves it. -/
def zeroSocket : AlinkSocket where
  sRecv := { wPkgSize := 0, wCount := 0, sRecvCbk := none, pbyBuffer := 0, puState := .checkMagic }
  sImport := { ePortId := 0, pbyData := 0, uLength := 0, handle := 0, peSend := false }
  abyBuffer := 0
  psOrder := none

/-- The receiving side of `c2_network_create`, over whatever the stack holds. -/
def c2NetworkCreate (psSocket : Nat) (piSend : Bool) (abyBuffer : Ptr UInt8) : C2Network where
  sAlinkSocket := alinkSocketInit zeroSocket .sOrder
  psSocket := psSocket
  piSend := piSend
  abyBuffer := abyBuffer

/-- `data` is what `pi_recv` stores. `tcp_client_recv` returns its length, and 0
    for every failure. -/
def c2NetworkCbkData (psNetwork : C2Network) (data : List UInt8) :
    Option (C2Network × List Dispatch) :=
  let abyBuffer := psNetwork.abyBuffer.store 0 data
  let sImport : AlinkRecvImport :=
    { ePortId := 1, pbyData := 0, uLength := data.length, handle := psNetwork.psSocket,
      peSend := psNetwork.piSend }
  (alinkSocketTask abyBuffer psNetwork.sAlinkSocket sImport).map
    fun after => ({ psNetwork with sAlinkSocket := after.1, abyBuffer }, after.2)

/-- One callback after the other. -/
def c2NetworkRun (psNetwork : C2Network) : List (List UInt8) → Option (C2Network × List Dispatch)
  | [] => some (psNetwork, [])
  | data :: rest =>
      (c2NetworkCbkData psNetwork data).bind fun after =>
        (c2NetworkRun after.1 rest).map fun later => (later.1, after.2 ++ later.2)

/-- The messages of a run that returned. -/
def messages (ran : Option (C2Network × List Dispatch)) : Option (List (List UInt8)) :=
  ran.map fun after => after.2.map Dispatch.msg

section Reads

variable {psNetwork : C2Network} {psHandle : AlinkOrderRef}

theorem c2NetworkCbkData_scan (idle : psNetwork.sAlinkSocket.Idle psHandle) (data : List UInt8)
    (small : data.length ≤ 2 ^ 31) :
    ∃ psNetwork' sent, c2NetworkCbkData psNetwork data = some (psNetwork', sent) ∧
      sent.map Dispatch.msg = (alinkFormat.scan data).1 ∧
      (alinkFormat.Settled data → psNetwork'.sAlinkSocket.Idle psHandle) := by
  let sImport : AlinkRecvImport := ⟨1, 0, data.length, psNetwork.psSocket, psNetwork.piSend⟩
  let abyBuffer := psNetwork.abyBuffer.store 0 data
  have task : ∃ psSocket' sent,
      alinkSocketTask abyBuffer psNetwork.sAlinkSocket sImport = some (psSocket', sent) ∧
        sent.map Dispatch.msg = (alinkFormat.scan data).1 ∧
        (∀ d ∈ sent, d.From psHandle sImport 0 data) ∧
        (alinkFormat.Settled data → psSocket'.Idle psHandle) :=
    alinkSocketTask_scan idle rfl (Ptr.read_store _ 0 data) small
  obtain ⟨psSocket', sent, ran, msgs, -, settled⟩ := task
  refine ⟨{ psNetwork with sAlinkSocket := psSocket', abyBuffer }, sent, ?_, msgs, settled⟩
  exact congrArg (Option.map _) ran

theorem c2NetworkRun_cons {data : List UInt8} {rest : List (List UInt8)} {psNetwork' : C2Network}
    {sent : List Dispatch}
    (ran : c2NetworkCbkData psNetwork data = some (psNetwork', sent)) :
    c2NetworkRun psNetwork (data :: rest) =
      (c2NetworkRun psNetwork' rest).map fun later => (later.1, sent ++ later.2) := by
  rw [c2NetworkRun, ran]
  rfl

theorem messages_cons {data : List UInt8} {rest : List (List UInt8)} {psNetwork' : C2Network}
    {sent : List Dispatch}
    {later : List (List UInt8)} (ran : c2NetworkCbkData psNetwork data = some (psNetwork', sent))
    (after : messages (c2NetworkRun psNetwork' rest) = some later) :
    messages (c2NetworkRun psNetwork (data :: rest)) = some (sent.map Dispatch.msg ++ later) := by
  obtain ⟨last, run, rfl⟩ := Option.map_eq_some_iff.mp after
  rw [c2NetworkRun_cons ran, run, messages, Option.map_some, Option.map_some, List.map_append]

/-- A run whose reads, all but the last, end between candidates. -/
theorem c2NetworkRun_scan (pieces : List (List UInt8)) (last : List UInt8)
    (settled : ∀ d ∈ pieces, alinkFormat.Settled d) (idle : psNetwork.sAlinkSocket.Idle psHandle)
    (small : (pieces.flatten ++ last).length ≤ 2 ^ 31) :
    messages (c2NetworkRun psNetwork (pieces ++ [last])) =
      some (alinkFormat.scan (pieces.flatten ++ last)).1 := by
  induction pieces generalizing psNetwork with
  | nil =>
      obtain ⟨psNetwork', sent, ran, msgs, -⟩ :=
        c2NetworkCbkData_scan idle last (by simpa using small)
      have nothing : messages (c2NetworkRun psNetwork' []) = some [] := rfl
      rw [List.nil_append, messages_cons ran nothing, msgs]
      simp
  | cons d rest ih =>
      have total : ((d :: rest).flatten ++ last).length =
          d.length + (rest.flatten ++ last).length := by
        simp
      have cut := settled d List.mem_cons_self
      obtain ⟨psNetwork', sent, ran, msgs, after⟩ := c2NetworkCbkData_scan idle d (by omega)
      have later := ih (fun e member => settled e (List.mem_cons_of_mem d member))
        (after cut) (by omega)
      rw [List.cons_append, messages_cons ran later, msgs, List.flatten_cons, List.append_assoc,
        alinkFormat.scan_settled_append cut]

end Reads

/-! ## What cutting a stream changes -/

/-- The messages do not depend on how the stream was cut into these reads. -/
def FragmentationIndependent (psNetwork : C2Network) (reads : List (List UInt8)) : Prop :=
  ∃ msgs, messages (c2NetworkRun psNetwork reads) = some msgs ∧
    messages (c2NetworkRun psNetwork [reads.flatten]) = some msgs

/-- Reads are harmless as long as each of them, the last one apart, is made of
    bytes outside packages, rejected headers and whole packages. -/
theorem c2Network_fragmentation (psSocket : Nat) (piSend : Bool) (abyBuffer : Ptr UInt8)
    (reads : List (List UInt8))
    (small : reads.flatten.length ≤ c2NetworkBufferSize)
    (whole : ∀ d ∈ reads.dropLast, alinkFormat.Whole d) :
    FragmentationIndependent (c2NetworkCreate psSocket piSend abyBuffer) reads := by
  have idle := alinkSocketInit_idle zeroSocket .sOrder
  have fits : reads.flatten.length ≤ 2 ^ 31 := by
    simp only [c2NetworkBufferSize] at small
    omega
  let psNetwork := c2NetworkCreate psSocket piSend abyBuffer
  have once : messages (c2NetworkRun psNetwork [reads.flatten]) =
      some (alinkFormat.scan reads.flatten).1 :=
    c2NetworkRun_scan [] reads.flatten (by simp) idle fits
  refine ⟨_, ?_, once⟩
  rcases List.eq_nil_or_concat' reads with rfl | ⟨pieces, last, rfl⟩
  · simp [messages, c2NetworkRun]
  · have flat : (pieces ++ [last]).flatten = pieces.flatten ++ last := by simp
    rw [List.dropLast_concat] at whole
    rw [flat] at fits ⊢
    exact c2NetworkRun_scan pieces last (fun d member => alinkFormat.whole_iff_settled.mp
      (whole d member)) idle fits

theorem c2Network_fragmentation_two :
    FragmentationIndependent (c2NetworkCreate 7 true fun _ => 0) [emptyFrame, magicFrame] :=
  c2Network_fragmentation 7 true (fun _ => 0) [emptyFrame, magicFrame] (by decide)
   
      (by simp [alinkFormat.whole_iff_settled, Format.Settled,
        alinkFormat.scan_frame emptyFrame_accepted.isFrame])

/-- A frame whose last two bytes come in a read of their own is lost. -/
theorem c2Network_frame_lost :
    ¬ ∀ psSocket piSend abyBuffer (reads : List (List UInt8)), (∀ d ∈ reads, d ≠ []) →
      reads.flatten.length ≤ c2NetworkBufferSize →
        FragmentationIndependent (c2NetworkCreate psSocket piSend abyBuffer) reads := by
  intro independent
  obtain ⟨msgs, cut, whole⟩ :=
    independent 7 true (fun _ => 0) [emptyFrame.take 9, emptyFrame.drop 9] (by decide) (by decide)
  have lost : messages (c2NetworkRun (c2NetworkCreate 7 true fun _ => 0)
      [emptyFrame.take 9, emptyFrame.drop 9]) = some [] := by decide
  have found : messages (c2NetworkRun (c2NetworkCreate 7 true fun _ => 0)
      [[emptyFrame.take 9, emptyFrame.drop 9].flatten]) = some [emptyFrame] := by decide
  rw [lost] at cut
  rw [found] at whole
  exact absurd (cut.trans whole.symm) (by decide)

end PtzAgx.App
