import PtzAgx.EthLink.NetconProtocol
import PtzAgx.EthLink.TcpClients
import PtzAgx.Lib.CString

/-! # Being found

The handlers of `eth_link.c` for the two messages of the search protocol: one
that looks for the device, and one that tells it where to connect. The messages
are read from a buffer on the stack that is not cleared. The file with the serial
number is taken to stay what it is while a message is handled.
-/

namespace PtzAgx.EthLink.Discovery

open Alink Bytes CString Intrusive Object Words

/-- What `udp_socket_recv` reports of the sender `s_addr`. -/
def udpSocketRecvIp (sAddr : UInt32) : UInt32 := htonl sAddr

/-- The `s_addr` that `tcp_client_task` connects to. -/
def remoteAddr (client : TcpClient) : UInt32 := htonl client.uRemoteIp

/-- The characters of `RADAR-12345678`. -/
def defaultSn : List UInt8 :=
  [0x52, 0x41, 0x44, 0x41, 0x52, 0x2D, 0x31, 0x32, 0x33, 0x34, 0x35, 0x36, 0x37, 0x38]

/-- `file` is what can be read of the file, `none` if that fails, and `sn` the
    static buffer, which keeps what earlier reads have left behind a shorter one. -/
def ethProtocolGetSn (file : Option (List UInt8)) (sn : List UInt8) : List UInt8 :=
  match file with
  | some (b :: bytes) => str 64 (Ptr.ofList (overlay sn ((b :: bytes).take 63)))
  | some [] => defaultSn
  | none => defaultSn

/-- What the handlers find of the program. -/
structure LinkState where
  psEthList : List EthLinkType
  bFlagTick : Bool
  file : Option (List UInt8)
  sn : List UInt8

def LinkState.getSn (s : LinkState) : List UInt8 := ethProtocolGetSn s.file s.sn

/-- What a message comes to. -/
inductive LinkCall where
  | nothing
  | devinfoPkgSend
  | createSocket (type : UInt16) (ip : UInt32) (port : UInt16)
  deriving Repr, DecidableEq

/-- `strlen`, and `memcmp` if the lengths are the same. -/
def isSn (serial abyBuffer : List UInt8) (sn : Nat) : Option Bool :=
  (strlen (abyBuffer.drop sn)).bind fun len =>
    if serial.length = len then (slice abyBuffer sn len).map (· == serial) else some false

/-- `for( ; psClient; psClient = psClient->psNext )`. -/
def findRemoteFrom (uIp : UInt32) (t : TcpList TcpClient) : Nat → Option Nat → Option Bool
  | _, none => some false
  | 0, some _ => none
  | fuel + 1, some psClient =>
      (t.entries psClient).bind fun client =>
        if htonl client.uRemoteIp = uIp then some true else findRemoteFrom uIp t fuel
          (t.list.next psClient)

/-- `for( ; psList; psList = psList->next )`: whether it is left early. -/
def findRemote (fuel : Nat) (uIp : UInt32) : List EthLinkType → Option Bool
  | [] => some false
  | psList :: rest =>
      if rthLinkNetTcpClient = psList.net then
        (findRemoteFrom uIp psList.clients fuel psList.clients.list.head).bind fun found =>
          if found then some true else findRemote fuel uIp rest
      else findRemote fuel uIp rest

/-- `psSearch` is a place in the buffer: four bytes of `protocol`, then `sn`. -/
def ethProtocolSearchHandler (fuel : Nat) (s : LinkState) (abyBuffer : List UInt8) (psSearch : Nat)
    (uIp : UInt32) :
    Option LinkCall :=
  let sn := psSearch + 4
  (abyBuffer[sn]?).bind fun first =>
    if first ≠ 0 then
      (isSn s.getSn abyBuffer sn).map fun same => if same then .devinfoPkgSend else .nothing
    else
      (findRemote fuel uIp s.psEthList).map fun known => if known then .nothing else .devinfoPkgSend

def cntinfoSocket (abyBuffer : List UInt8) (psCntInfo : Nat) : Option LinkCall := do
  let ip ← slice abyBuffer (psCntInfo + 32 : Nat) 4
  let port ← slice abyBuffer (psCntInfo + 36 : Nat) 2
  let type ← slice abyBuffer (psCntInfo + 38 : Nat) 2
  return .createSocket (UInt16.ofNat (littleEndian type)) (htonl (UInt32.ofNat (littleEndian ip)))
    (UInt16.ofNat (littleEndian port))

/-- `psCntInfo` is a place in the buffer: `sn`, `ip`, `port` and `type`. -/
def ethProtocolCntinfoHandler (s : LinkState) (abyBuffer : List UInt8) (psCntInfo : Nat) :
    Option LinkCall :=
  (abyBuffer[psCntInfo]?).bind fun first =>
    if first ≠ 0 then
      (isSn s.getSn abyBuffer psCntInfo).bind fun same =>
        if same then cntinfoSocket abyBuffer psCntInfo else some .nothing
    else cntinfoSocket abyBuffer psCntInfo

def ethProtocolHandler (fuel : Nat) (s : LinkState) (msg : List UInt8) (len : Nat) (uIp : UInt32) :
    Option LinkCall :=
  match ethProtocolAnalysis (Ptr.ofList msg) len with
  | none => some .nothing
  | some pbyData =>
      if MsgHead.msgid (Ptr.ofList msg) = netprotocalMsgIdLookup
        then ethProtocolSearchHandler fuel s msg pbyData uIp
      else if MsgHead.msgid (Ptr.ofList msg) = netprotocalMsgIdRequestConnect then
        ethProtocolCntinfoHandler s msg pbyData
      else some .nothing

/-! ## What the calls do -/

/-- The characters of `acur101_app_v00.01.02_dev`. -/
def devinfoVersion : List UInt8 :=
  [0x61, 0x63, 0x75, 0x72, 0x31, 0x30, 0x31, 0x5F, 0x61, 0x70, 0x70, 0x5F, 0x76, 0x30, 0x30, 0x2E,
    0x30, 0x31, 0x2E, 0x30, 0x32, 0x5F, 0x64, 0x65, 0x76]

/-- `sizeof(eth_protocol_devinfo_t)`. -/
def ethProtocolDevinfoSize : Nat := 147

/-- The message of `eth_protocol_devinfo_pkg_send`, whose other bytes are what the
    stack holds at `psDevInfo`. -/
def ethProtocolDevinfo (serial psDevInfo : List UInt8) : Option (List UInt8) := do
  let psDevInfo ← write psDevInfo 9 (littleBytes 4 3)
  let psDevInfo ← write psDevInfo 13 (strncpy 64 serial)
  let psDevInfo ← write psDevInfo 77 (littleBytes 2 3)
  let psDevInfo ← write psDevInfo 79 (littleBytes 2 1)
  let psDevInfo ← write psDevInfo 81 (strncpy 64 devinfoVersion)
  let (_, psDevInfo) ← ethProtocolPackage netprotocalMsgIdLookupResp psDevInfo
    (ethProtocolDevinfoSize - 11)
  return psDevInfo

/-- The datagrams for the UDP socket and `bFlagTick` behind them. -/
def ethLinkBroadcast (bFlagTick : Bool) (pbyData : List UInt8) : List (List UInt8) × Bool :=
  if bFlagTick then ([pbyData, pbyData, pbyData], false) else ([], bFlagTick)

/-- What is seen of a message: the answers sent, the connections asked for as type,
    address and port, and whether there will be an answer to the next one. -/
structure LinkEffect where
  answers : List (List UInt8)
  requests : List (UInt16 × UInt32 × UInt16)
  bFlagTick : Bool
  deriving Repr, DecidableEq

def LinkCall.effect (s : LinkState) (psDevInfo : List UInt8) : LinkCall → Option LinkEffect
  | .nothing => some ⟨[], [], s.bFlagTick⟩
  | .devinfoPkgSend =>
      (ethProtocolDevinfo s.getSn psDevInfo).map fun pbyData =>
        let (answers, bFlagTick) := ethLinkBroadcast s.bFlagTick pbyData
        ⟨answers, [], bFlagTick⟩
  | .createSocket type ip port => some ⟨[], [(type, ip, port)], s.bFlagTick⟩

/-- The objects on the stack that are not cleared. -/
structure LinkStack where
  abyBuffer : List UInt8
  sDevInfo : List UInt8
  received : abyBuffer.length = 64
  devinfo : sDevInfo.length = ethProtocolDevinfoSize

/-- `eth_protocol_handler` on a message at the front of the buffer. -/
def LinkStack.handle (fuel : Nat) (s : LinkState) (m : LinkStack) (len : Nat) (uIp : UInt32) :
    Option LinkEffect :=
  (ethProtocolHandler fuel s m.abyBuffer len uIp).bind fun call => call.effect s m.sDevInfo

theorem length_received (m : LinkStack) (datagram : List UInt8) :
    (overlay m.abyBuffer (datagram.take 64)).length = 64 := by
  have fits : (datagram.take 64).length ≤ m.abyBuffer.length := by
    rw [m.received]
    exact List.length_take_le 64 datagram
  rw [length_overlay fits, m.received]

/-- The stack with a datagram in the buffer, as far as it fits. -/
def LinkStack.receive (m : LinkStack) (datagram : List UInt8) : LinkStack :=
  { m with abyBuffer := overlay m.abyBuffer (datagram.take 64),
           received := length_received m datagram }

/-- `local_ip` is in network order. -/
def ethLinkUdpCbkData (fuel : Nat) (s : LinkState) (m : LinkStack) (localIp sAddr : UInt32)
    (datagram : List UInt8) :
    Option LinkEffect :=
  let uIp := udpSocketRecvIp sAddr
  if htonl uIp = localIp then some ⟨[], [], s.bFlagTick⟩
  else (m.receive datagram).handle fuel s (datagram.take 64).length uIp

/-! ## Whether the sender is connected -/

/-- The connection is listed under a type for TCP clients. -/
def Connects (psEthList : List EthLinkType) (client : TcpClient) : Prop :=
  ∃ psList ∈ psEthList, psList.net = rthLinkNetTcpClient ∧
    ∃ listed, psList.clients.Lists listed ∧ client ∈ listed.map Prod.snd

/-- Every type has a list, of no more than `fuel` connections. -/
def Walkable (fuel : Nat) (psEthList : List EthLinkType) : Prop :=
  ∀ psList ∈ psEthList, ∃ listed, psList.clients.Lists listed ∧ listed.length ≤ fuel

section Remote

variable {t : TcpList TcpClient} {psEthList : List EthLinkType} {fuel : Nat}

theorem findRemoteFrom_eq (uIp : UInt32) {p : Option Nat} {listed : List (Nat × TcpClient)}
    (chain : Segment t.list.next p (listed.map Prod.fst) none)
    (contents : ∀ e ∈ listed, t.entries e.1 = some e.2)
    (enough : listed.length ≤ fuel) :
    findRemoteFrom uIp t fuel p =
      some (decide (∃ client ∈ listed.map Prod.snd, htonl client.uRemoteIp = uIp)) := by
  induction listed generalizing p fuel with
  | nil =>
      obtain rfl : p = none := chain
      cases fuel <;> simp [findRemoteFrom]
  | cons e rest ih =>
      obtain ⟨rfl, tail⟩ := chain
      obtain ⟨fuel, rfl⟩ := Nat.exists_eq_succ_of_ne_zero (Nat.ne_zero_of_lt enough)
      have later := ih tail (fun f member => contents f (List.mem_cons_of_mem e member))
        (Nat.le_of_succ_le_succ enough)
      rw [findRemoteFrom, contents e List.mem_cons_self, Option.bind_some, later]
      by_cases same : htonl e.2.uRemoteIp = uIp
      · simp [same]
      · simp [same]

theorem connects_cons {psList : EthLinkType} {listed : List (Nat × TcpClient)} (client : TcpClient)
    (lists : psList.clients.Lists listed) :
    Connects (psList :: psEthList) client ↔
      (psList.net = rthLinkNetTcpClient ∧ client ∈ listed.map Prod.snd) ∨
      Connects psEthList client := by
  constructor
  · rintro ⟨other, member, net, others, same, found⟩
    cases List.mem_cons.mp member with
    | inl first =>
        subst first
        exact .inl ⟨net, lists.unique same ▸ found⟩
    | inr later => exact .inr ⟨other, later, net, others, same, found⟩
  · rintro (⟨net, found⟩ | ⟨other, member, rest⟩)
    · exact ⟨psList, List.mem_cons_self, net, listed, lists, found⟩
    · exact ⟨other, List.mem_cons_of_mem psList member, rest⟩

theorem findRemote_eq (walks : Walkable fuel psEthList) (uIp : UInt32) :
    ∃ found, findRemote fuel uIp psEthList = some found ∧
      (found = true ↔ ∃ client, Connects psEthList client ∧ htonl client.uRemoteIp = uIp) := by
  induction psEthList with
  | nil => exact ⟨false, rfl, by simp [Connects]⟩
  | cons psList rest ih =>
      obtain ⟨later, passed, known⟩ :=
        ih fun other member => walks other (List.mem_cons_of_mem psList member)
      obtain ⟨listed, lists, enough⟩ := walks psList List.mem_cons_self
      have here := findRemoteFrom_eq uIp lists.chain lists.contents enough
      simp only [connects_cons _ lists, or_and_right, exists_or, ← known, findRemote]
      by_cases net : psList.net = rthLinkNetTcpClient
      · rw [if_pos net.symm, here, Option.bind_some, passed]
        by_cases found : ∃ client ∈ listed.map Prod.snd, htonl client.uRemoteIp = uIp
        · refine ⟨true, by simp only [found, decide_true, if_true], iff_of_true rfl (.inl ?_)⟩
          obtain ⟨client, member, same⟩ := found
          exact ⟨client, ⟨net, member⟩, same⟩
        · refine ⟨later, by simp only [found, decide_false, Bool.false_eq_true, if_false], ?_⟩
          refine (or_iff_right ?_).symm
          rintro ⟨client, ⟨-, member⟩, same⟩
          exact found ⟨client, member, same⟩
      · rw [if_neg (Ne.symm net), passed]
        refine ⟨later, rfl, (or_iff_right ?_).symm⟩
        rintro ⟨client, ⟨client', -⟩, -⟩
        exact net client'

end Remote

/-- A search for any device is answered, unless the sender is connected to. -/
def AnswersStrangers (fuel : Nat) (s : LinkState) (msg : List UInt8) (len : Nat) (sAddr : UInt32) :
    Prop :=
  ∃ call, ethProtocolHandler fuel s msg len (udpSocketRecvIp sAddr) = some call ∧
    (call = .devinfoPkgSend ↔ ∀ client, Connects s.psEthList client → remoteAddr client ≠ sAddr)

section Search

variable {fuel : Nat} {s : LinkState} {msg : List UInt8} {len : Nat}

/-- The loops compare the bytes of an entry with those of the sender's address in
    the opposite order: there is one `htonl` too many. -/
theorem ethProtocolSearch_unnamed (sAddr : UInt32) (walks : Walkable fuel s.psEthList)
    (accepted : ethProtocolAnalysis (Ptr.ofList msg) len ≠ none)
    (lookup : MsgHead.msgid (Ptr.ofList msg) = netprotocalMsgIdLookup)
    (unnamed : msg[ethProtocolHeadSize + 4]? = some 0) :
    ∃ call, ethProtocolHandler fuel s msg len (udpSocketRecvIp sAddr) = some call ∧
      (call = .devinfoPkgSend ↔ ¬ ∃ client, Connects s.psEthList client ∧
        remoteAddr client = htonl sAddr) := by
  have analysed := (ethProtocolAnalysis_accepted accepted).2
  obtain ⟨found, searched, known⟩ := findRemote_eq walks (udpSocketRecvIp sAddr)
  refine ⟨if found then .nothing else .devinfoPkgSend, ?_, ?_⟩
  · rw [ethProtocolHandler, analysed]
    simp only [lookup, if_true, ethProtocolSearchHandler, unnamed, Option.bind_some, ne_eq,
      not_true, if_false, searched, Option.map_some]
  · refine .trans ?_ (not_congr known)
    cases found <;> simp

end Search

/-- It is, when a connection goes to the sender exactly if one goes to the address
    with the bytes of the sender's in the opposite order. -/
theorem ethProtocolSearch_answers_iff (fuel : Nat) (s : LinkState) (msg : List UInt8) (len : Nat)
    (sAddr : UInt32)
    (walks : Walkable fuel s.psEthList) (accepted : ethProtocolAnalysis (Ptr.ofList msg) len ≠ none)
    (lookup : MsgHead.msgid (Ptr.ofList msg) = netprotocalMsgIdLookup)
    (unnamed : msg[ethProtocolHeadSize + 4]? = some 0) :
    AnswersStrangers fuel s msg len sAddr ↔
      ((∃ client, Connects s.psEthList client ∧ remoteAddr client = sAddr) ↔
        ∃ client, Connects s.psEthList client ∧ remoteAddr client = htonl sAddr) := by
  obtain ⟨call, handled, sent⟩ := ethProtocolSearch_unnamed sAddr walks accepted lookup unnamed
  have strangers : (∀ client, Connects s.psEthList client → remoteAddr client ≠ sAddr) ↔
      ¬ ∃ client, Connects s.psEthList client ∧ remoteAddr client = sAddr := by
    simp only [not_exists, not_and, ne_eq]
  simp only [AnswersStrangers, handled, Option.some.injEq, exists_eq_left', sent, strangers,
    not_iff_not]
  exact Iff.comm

/-- The only type, with one connection to 192.168.235.10. -/
def oneRemote : EthLinkType where
  net := rthLinkNetTcpClient
  max := 2
  type := 1
  clients := countList 1 ⟨0xC0A8EB0A, 20⟩

def oneRemoteState : LinkState where
  psEthList := [oneRemote]
  bFlagTick := true
  file := none
  sn := List.replicate 64 0

theorem oneRemote_lists : oneRemote.clients.Lists [(0, ⟨0xC0A8EB0A, 20⟩)] := ⟨⟨rfl, rfl⟩, by decide⟩

theorem oneRemote_walkable : Walkable 1 oneRemoteState.psEthList := by
  intro psList member
  obtain rfl := List.mem_singleton.mp member
  exact ⟨_, oneRemote_lists, Nat.le_refl 1⟩

/-- A search for any device. -/
def lookupAny : List UInt8 :=
  ethProtocolFrame netprotocalMsgIdLookup (littleBytes 4 4 ++ List.replicate 32 0)

theorem lookupAny_accepted :
    ethProtocolAnalysis (Ptr.ofList lookupAny) lookupAny.length ≠ none := by
  rw [lookupAny, ethProtocolFrame_analysis _ _ (by decide)]
  exact Option.some_ne_none _

theorem connects_oneRemote (client : TcpClient) :
    Connects oneRemoteState.psEthList client ↔ client = ⟨0xC0A8EB0A, 20⟩ := by
  rw [oneRemoteState, connects_cons client oneRemote_lists]
  simp [Connects, oneRemote]

/-- A search from 10.0.0.1. -/
theorem ethProtocolSearch_answers_iff_oneRemote :
    AnswersStrangers 1 oneRemoteState lookupAny lookupAny.length 0x0100000A ↔
      ((∃ client, Connects oneRemoteState.psEthList client ∧ remoteAddr client = 0x0100000A) ↔
        ∃ client, Connects oneRemoteState.psEthList client ∧
        remoteAddr client = htonl 0x0100000A) :=
  ethProtocolSearch_answers_iff 1 oneRemoteState lookupAny lookupAny.length 0x0100000A
    oneRemote_walkable
    lookupAny_accepted rfl rfl

/-- The C2 that is connected to is answered again. -/
theorem ethProtocolSearch_answersAgain :
    ¬ AnswersStrangers 1 oneRemoteState lookupAny lookupAny.length 0x0AEBA8C0 := by
  obtain ⟨call, handled, sent⟩ :=
    ethProtocolSearch_unnamed 0x0AEBA8C0 oneRemote_walkable lookupAny_accepted rfl rfl
  rintro ⟨other, again, strangers⟩
  obtain rfl := Option.some.inj (handled.symm.trans again)
  have unknown : ¬ ∃ client, Connects oneRemoteState.psEthList client ∧
      remoteAddr client = htonl 0x0AEBA8C0 := by
    simp only [connects_oneRemote, exists_eq_left]
    decide
  exact strangers.mp (sent.mpr unknown) ⟨0xC0A8EB0A, 20⟩ ((connects_oneRemote _).mpr rfl)
    (by decide)

end PtzAgx.EthLink.Discovery
