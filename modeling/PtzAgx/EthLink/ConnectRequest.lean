import PtzAgx.EthLink.NetconProtocol
import PtzAgx.EthLink.ServerRegistry
import PtzAgx.EthLink.TcpClients

/-! # Asking a radar to connect

The handler of `eth_link_server.c` for a radar that has been found: a server is
set up for it, and it is told where to connect. `psEthList` has one element, as
`eth_server_register` makes it and nothing else adds to it.
-/

namespace PtzAgx.EthLink.ConnectRequest

open Alink Bytes CString Object Words

/-- `eth_link_list_t`, with what the search protocol needs besides the servers. -/
structure ServerLink extends EthLinkList where
  net : UInt8
  serverIp : UInt32

/-- `sn` of `eth_protocol_devinfo_body_t`, behind the four bytes of `protocol`. -/
def devinfoSn : Nat := 4

def ethLinkCreateServer (sn : Ptr UInt8) (created : Option Nat) (psEthList : ServerLink) :
    Option (Int × ServerLink) :=
  if psEthList.net = rthLinkNetTcpClient then
    (ethLinkAddTcpServerList sn created psEthList.toEthLinkList).map fun (eRet, servers) =>
      (eRet, { psEthList with toEthLinkList := servers })
  else some (-1, psEthList)

/-- `psdev` is a place in the buffer. -/
def radarConnectionSetup (created : Option Nat) (psEthList : ServerLink) (abyBuffer : List UInt8)
    (psdev : Nat) :
    Option (Int × ServerLink) :=
  ethLinkCreateServer (Ptr.ofList (abyBuffer.drop (psdev + devinfoSn))) created psEthList

/-- `ep_ctlinfo` of the handler. -/
def epCtlinfo (psEthList : ServerLink) (abyBuffer : List UInt8) (psdev : Nat) :
    Option (List UInt8) := do
  let epCtlinfo := List.replicate ethProtocolCntinfoSize 0
  let epCtlinfo ← write epCtlinfo 32 (littleBytes 4 psEthList.serverIp.toNat)
  let epCtlinfo ← write epCtlinfo 36 (littleBytes 2 psEthList.curCon.toNat)
  let len ← strlen (abyBuffer.drop (psdev + devinfoSn))
  let sn ← slice abyBuffer (psdev + devinfoSn : Nat) len
  let epCtlinfo ← write epCtlinfo 0 sn
  write epCtlinfo 38 (littleBytes 2 1)

/-- The list, and the datagrams sent. -/
def ethProtocolSearchHandler (created : Option Nat) (psEthList : ServerLink)
    (abyBuffer : List UInt8) (psdev : Nat)
    (uIp : UInt32) : Option (ServerLink × List (List UInt8)) :=
  if htonl uIp = psEthList.serverIp then some (psEthList, [])
  else do
    let (ret, psEthList) ← radarConnectionSetup created psEthList abyBuffer psdev
    if ret ≠ 0 then some (psEthList, [])
    else
      let info ← epCtlinfo psEthList abyBuffer psdev
      let (ret, epReqPackage) ← ethProtocolGetRequestPackage
        (List.replicate ethProtocolRequestSize 0) info
      return (psEthList, [epReqPackage.take ret])

/-- `eth_protocol_cfg_handler`, for the other message there is, does nothing. -/
def ethProtocolHandler (created : Option Nat) (psEthList : ServerLink) (msg : List UInt8)
    (len : Nat) (uIp : UInt32) :
    Option (ServerLink × List (List UInt8)) :=
  match ethProtocolAnalysis (Ptr.ofList msg) len with
  | none => some (psEthList, [])
  | some pbyData =>
      if MsgHead.msgid (Ptr.ofList msg) = netprotocalMsgIdLookupResp then
        ethProtocolSearchHandler created psEthList msg pbyData uIp
      else some (psEthList, [])

/-- The buffer is cleared before a datagram is received into it. -/
def abyBufferWith (datagram : List UInt8) : List UInt8 :=
  overlay (List.replicate 512 0) (datagram.take 512)

def ethLinkUdpCbkData (created : Option Nat) (psEthList : ServerLink) (sAddr : UInt32)
    (datagram : List UInt8) :
    Option (ServerLink × List (List UInt8)) :=
  ethProtocolHandler created psEthList (abyBufferWith datagram) (datagram.take 512).length
    (htonl sAddr)

/-! ## The record -/

/-- A connect request's record. -/
def cntinfo (sn : List UInt8) (ip : UInt32) (port type : UInt16) : List UInt8 :=
  strncpy radarDeviceSnLen sn ++ (littleBytes 4 ip.toNat ++ littleBytes 2 port.toNat) ++
    littleBytes 2 type.toNat

/-- Where the radar is to connect to, as it stands behind `sn`. -/
def endpoint (psEthList : ServerLink) : List UInt8 :=
  littleBytes 4 psEthList.serverIp.toNat ++ littleBytes 2 psEthList.curCon.toNat

/-- The serial number fits its field, or the bytes of it that follow are the ones
    they are written over. -/
structure Fits (psEthList : ServerLink) (sn : List UInt8) : Prop where
  inside : sn.length ≤ ethProtocolCntinfoSize
  behind : (sn.drop radarDeviceSnLen).take 6 = (endpoint psEthList).take
    (sn.length - radarDeviceSnLen)

section Record

variable {psEthList : ServerLink} {abyBuffer sn : List UInt8} {psdev : Nat}

theorem length_endpoint (psEthList : ServerLink) : (endpoint psEthList).length = 6 := by
  rw [endpoint, List.length_append, length_littleBytes, length_littleBytes]

/-- The record before the serial number is copied. -/
def unnamedInfo (psEthList : ServerLink) : List UInt8 :=
  List.replicate radarDeviceSnLen 0 ++ (endpoint psEthList ++ [0, 0])

theorem length_unnamedInfo (psEthList : ServerLink) :
    (unnamedInfo psEthList).length = ethProtocolCntinfoSize := by
  rw [unnamedInfo, List.length_append, List.length_append, length_endpoint]
  rfl

/-- The copy is as long as the serial number, which the record need not be. -/
theorem epCtlinfo_eq (ends : 0 ∈ abyBuffer.drop (psdev + devinfoSn)) :
    epCtlinfo psEthList abyBuffer psdev =
      if (strAt abyBuffer (psdev + devinfoSn)).length ≤ ethProtocolCntinfoSize then
        some ((overlay (unnamedInfo psEthList) (strAt abyBuffer (psdev + devinfoSn))).take 38 ++
          littleBytes 2 1)
      else none := by
  obtain ⟨len, measured⟩ := exists_strlen ends
  have within := strlen_lt measured
  rw [List.length_drop] at within
  have size := length_unnamedInfo psEthList
  have start : overlay (unnamedInfo psEthList) [] = unnamedInfo psEthList := rfl
  unfold epCtlinfo
  rw [measured]
  show (slice abyBuffer (psdev + devinfoSn : Nat) len >>= fun sn =>
    write (overlay (unnamedInfo psEthList) []) 0 sn >>= fun info =>
      write info 38 (littleBytes 2 1)) = _
  rw [slice_bind (by omega), take_drop_strlen measured]
  by_cases fits : (strAt abyBuffer (psdev + devinfoSn)).length ≤ ethProtocolCntinfoSize
  · have whole : (overlay (unnamedInfo psEthList) (strAt abyBuffer (psdev + devinfoSn))).length =
        ethProtocolCntinfoSize := by
      rw [length_overlay (by omega), size]
    rw [if_pos fits, write_bind (by rfl) (by omega), List.nil_append, write, length_littleBytes,
      whole]
    rw [List.drop_of_length_le (by rw [whole]; decide), List.append_nil]
    rfl
  · have outside : ¬ 0 + (strAt abyBuffer (psdev + devinfoSn)).length ≤
        (unnamedInfo psEthList).length := by omega
    rw [if_neg fits, start, write, if_neg outside]
    rfl

theorem epCtlinfo_none (endless : 0 ∉ abyBuffer.drop (psdev + devinfoSn)) :
    epCtlinfo psEthList abyBuffer psdev = none := by
  unfold epCtlinfo
  rw [strlen_eq_none_iff.mpr endless]
  rfl

theorem overlay_unnamedInfo (psEthList : ServerLink) (sn : List UInt8) :
    (overlay (unnamedInfo psEthList) sn).take radarDeviceSnLen = strncpy radarDeviceSnLen sn := by
  rw [overlay, strncpy, List.take_append, List.take_append]
  congr 1
  rw [unnamedInfo, List.drop_append, List.take_append_of_le_length (by simp), List.drop_replicate,
    List.take_replicate, List.take_replicate]
  congr 1
  omega

/-- The record says what was decided exactly if the bytes written over the endpoint
    are its own. -/
theorem overlay_cntinfo_iff (inside : sn.length ≤ ethProtocolCntinfoSize) :
    (overlay (unnamedInfo psEthList) sn).take 38 ++ littleBytes 2 1 =
        cntinfo sn psEthList.serverIp psEthList.curCon 1 ↔
      (sn.drop radarDeviceSnLen).take 6 = (endpoint psEthList).take (sn.length -
        radarDeviceSnLen) := by
  have behind : (unnamedInfo psEthList).drop radarDeviceSnLen = endpoint psEthList ++ [0, 0] :=
    List.drop_left' rfl
  have fits : (sn.drop radarDeviceSnLen).length ≤ (endpoint psEthList ++ [0, 0]).length := by
    rw [List.length_drop, List.length_append, length_endpoint]
    exact Nat.sub_le_sub_right inside radarDeviceSnLen
  have ends : (endpoint psEthList ++ [0, 0]).take 6 = endpoint psEthList :=
    List.take_left' (length_endpoint psEthList)
  have parts : (overlay (unnamedInfo psEthList) sn).take (radarDeviceSnLen + 6) =
      strncpy radarDeviceSnLen sn ++ (overlay (endpoint psEthList ++ [0, 0])
        (sn.drop radarDeviceSnLen)).take 6 := by
    rw [List.take_add, overlay_unnamedInfo, drop_overlay, behind]
  have agree := take_overlay_eq_iff 6 fits
  rw [ends, List.length_drop] at agree
  rw [← agree]
  show (overlay (unnamedInfo psEthList) sn).take (radarDeviceSnLen + 6) ++ littleBytes 2 1 =
    strncpy radarDeviceSnLen sn ++ endpoint psEthList ++ littleBytes 2 1 ↔ _
  rw [List.append_left_inj, parts, List.append_right_inj]

theorem length_epCtlinfo {info : List UInt8}
    (made : epCtlinfo psEthList abyBuffer psdev = some info) :
    info.length = ethProtocolCntinfoSize := by
  by_cases ends : 0 ∈ abyBuffer.drop (psdev + devinfoSn)
  · rw [epCtlinfo_eq ends] at made
    split at made
    · rename_i fits
      have size := length_unnamedInfo psEthList
      obtain rfl := Option.some.inj made
      rw [List.length_append, length_littleBytes, List.length_take, length_overlay (by omega), size]
      rfl
    · cases made
  · rw [epCtlinfo_none ends] at made
    cases made

theorem epCtlinfo_cntinfo_iff :
    epCtlinfo psEthList abyBuffer psdev =
        some (cntinfo (strAt abyBuffer (psdev + devinfoSn)) psEthList.serverIp psEthList.curCon 1) ↔
      0 ∈ abyBuffer.drop (psdev + devinfoSn) ∧
      Fits psEthList (strAt abyBuffer (psdev + devinfoSn)) := by
  by_cases ends : 0 ∈ abyBuffer.drop (psdev + devinfoSn)
  · rw [epCtlinfo_eq ends]
    by_cases inside : (strAt abyBuffer (psdev + devinfoSn)).length ≤ ethProtocolCntinfoSize
    · rw [if_pos inside, Option.some.injEq, overlay_cntinfo_iff inside]
      constructor
      · exact fun behind => ⟨ends, inside, behind⟩
      · exact fun fits => fits.2.behind
    · rw [if_neg inside]
      exact iff_of_false nofun fun fits => inside fits.2.inside
  · rw [epCtlinfo_none ends]
    exact iff_of_false nofun fun fits => ends fits.1

end Record

/-- What the server decided is what the radar is told. -/
def CarriesDecision (created : Option Nat) (psEthList after : ServerLink) (datagram : List UInt8)
    (sAddr : UInt32) :
    Prop :=
  ∃ frame, ethLinkUdpCbkData created psEthList sAddr datagram = some (after, [frame]) ∧
    ethProtocolAnalysis (Ptr.ofList frame) frame.length = some ethProtocolHeadSize ∧
    MsgHead.msgid (Ptr.ofList frame) = netprotocalMsgIdRequestConnect ∧
    (frame.drop ethProtocolHeadSize).take ethProtocolCntinfoSize =
      cntinfo (strAt (abyBufferWith datagram) (ethProtocolHeadSize + devinfoSn)) after.serverIp
      after.curCon 1

/-- A radar's answer from another host, for which a server could be set up. -/
structure Answered (created : Option Nat) (psEthList after : ServerLink) (datagram : List UInt8)
    (sAddr : UInt32) :
    Prop where
  short : datagram.length ≤ 512
  accepted : ethProtocolAnalysis (Ptr.ofList datagram) datagram.length ≠ none
  response : MsgHead.msgid (Ptr.ofList datagram) = netprotocalMsgIdLookupResp
  foreign : sAddr ≠ psEthList.serverIp
  setup : radarConnectionSetup created psEthList (abyBufferWith datagram) ethProtocolHeadSize =
    some (0, after)

section Handler

variable {created : Option Nat} {psEthList after : ServerLink} {datagram : List UInt8}
  {sAddr : UInt32}

theorem abyBufferWith_eq (short : datagram.length ≤ 512) :
    abyBufferWith datagram = datagram ++ (List.replicate 512 0).drop datagram.length := by
  rw [abyBufferWith, List.take_of_length_le short, overlay]

theorem ethLinkUdpCbkData_answered (answered : Answered created psEthList after datagram sAddr) :
    ethLinkUdpCbkData created psEthList sAddr datagram =
      (epCtlinfo after (abyBufferWith datagram) ethProtocolHeadSize).map fun info =>
        (after, [ethProtocolFrame netprotocalMsgIdRequestConnect info]) := by
  obtain ⟨short, accepted, response, foreign, setup⟩ := answered
  obtain ⟨again, same⟩ :=
    ethProtocolAnalysis_append (show datagram.length ≤ 65535 by omega) accepted
    ((List.replicate 512 0).drop datagram.length)
  rw [← abyBufferWith_eq short] at again same
  rw [ethLinkUdpCbkData, List.take_of_length_le short, ethProtocolHandler, again]
  simp only [same, response, if_true, ethProtocolSearchHandler, htonl_htonl, foreign,
    if_false, setup]
  cases made : epCtlinfo after (abyBufferWith datagram) ethProtocolHeadSize with
  | none => simp [made]
  | some info =>
      have forty := length_epCtlinfo made
      have length : (ethProtocolFrame netprotocalMsgIdRequestConnect info).length ≤
          ethProtocolRequestSize := by
        rw [length_ethProtocolFrame, forty]
        decide
      have packed := ethProtocolGetRequestPackage_eq forty (List.length_replicate
          (n := ethProtocolRequestSize) (a := 0))
      simp [made, packed, List.take_of_length_le length]

theorem ethProtocolFrame_cntinfo {info : List UInt8} (made : info.length = ethProtocolCntinfoSize) :
    let frame := ethProtocolFrame netprotocalMsgIdRequestConnect info
    ethProtocolAnalysis (Ptr.ofList frame) frame.length = some ethProtocolHeadSize ∧
      MsgHead.msgid (Ptr.ofList frame) = netprotocalMsgIdRequestConnect ∧
      (frame.drop ethProtocolHeadSize).take ethProtocolCntinfoSize = info := by
  refine ⟨ethProtocolFrame_analysis _ info (by rw [made]; decide), rfl, ?_⟩
  rw [← made]
  exact ethProtocolFrame_payload _ info

theorem CarriesDecision.made (answered : Answered created psEthList after datagram sAddr)
    (carries : CarriesDecision created psEthList after datagram sAddr) :
    epCtlinfo after (abyBufferWith datagram) ethProtocolHeadSize =
      some (cntinfo (strAt (abyBufferWith datagram) (ethProtocolHeadSize + devinfoSn))
        after.serverIp after.curCon 1) := by
  obtain ⟨frame, sent, -, -, record⟩ := carries
  rw [ethLinkUdpCbkData_answered answered] at sent
  obtain ⟨info, made, same⟩ := Option.map_eq_some_iff.mp sent
  obtain rfl := (List.cons.inj (Prod.mk.inj same).2).1
  rw [(ethProtocolFrame_cntinfo (length_epCtlinfo made)).2.2] at record
  rw [made, record]

end Handler

/-- The radar is told what was decided exactly if its serial number ends and fits. -/
theorem ethProtocolSearch_carries_iff (created : Option Nat) (psEthList after : ServerLink)
    (datagram : List UInt8)
    (sAddr : UInt32) (answered : Answered created psEthList after datagram sAddr) :
    CarriesDecision created psEthList after datagram sAddr ↔
      0 ∈ (abyBufferWith datagram).drop (ethProtocolHeadSize + devinfoSn) ∧
        Fits after (strAt (abyBufferWith datagram) (ethProtocolHeadSize + devinfoSn)) := by
  rw [← epCtlinfo_cntinfo_iff]
  constructor
  · exact CarriesDecision.made answered
  · intro made
    have carried := ethProtocolFrame_cntinfo (length_epCtlinfo made)
    rw [CarriesDecision, ethLinkUdpCbkData_answered answered, made]
    exact ⟨_, rfl, carried⟩

/-- The list with the server that waits for the first radar, at 192.168.235.7. -/
def waiting : ServerLink where
  max := agxMaxDefaultNum
  curCon := agxDefaultPortHead
  serverBasicalPort := agxDefaultPortHead
  servers := countList 1 ⟨netpotocalInitilaSn ++ List.replicate 25 0, agxDefaultPortHead⟩
  net := rthLinkNetTcpClient
  serverIp := 0x07EBA8C0

/-- The answer of a radar with this serial number field, followed by its type, its
    status and no version. -/
def radarAnswer (sn : List UInt8) : List UInt8 :=
  ethProtocolFrame netprotocalMsgIdLookupResp
    (littleBytes 4 3 ++ sn ++ littleBytes 2 3 ++ littleBytes 2 1 ++ List.replicate 64 0)

theorem radarAnswer_answered (sn : List UInt8) (sized : sn.length = radarDeviceSnLen)
    {after : ServerLink}
    (setup : radarConnectionSetup none waiting
      (abyBufferWith (radarAnswer sn)) ethProtocolHeadSize = some (0, after)) :
    Answered none waiting after (radarAnswer sn) 1 where
  short := by
    rw [radarAnswer, length_ethProtocolFrame]
    simp only [List.length_append, length_littleBytes, sized, List.length_replicate]
    decide
  accepted := by
    rw [radarAnswer, ethProtocolFrame_analysis]
    · exact Option.some_ne_none _
    · simp only [List.length_append, length_littleBytes, sized, List.length_replicate]
      decide
  response := rfl
  foreign := by decide
  setup := setup

theorem ethProtocolSearch_carries_iff_waiting :
    ∃ after, Answered none waiting after (radarAnswer (0x41 :: List.replicate 31 0)) 1 ∧
      (CarriesDecision none waiting after (radarAnswer (0x41 :: List.replicate 31 0)) 1 ↔
        0 ∈ (abyBufferWith (radarAnswer (0x41 :: List.replicate 31 0))).drop
            (ethProtocolHeadSize + devinfoSn) ∧
          Fits after (strAt (abyBufferWith (radarAnswer (0x41 :: List.replicate 31 0)))
            (ethProtocolHeadSize + devinfoSn))) :=
  ⟨_, radarAnswer_answered _ rfl rfl, ethProtocolSearch_carries_iff none waiting _ _ 1
    (radarAnswer_answered _ rfl rfl)⟩

/-- A serial number of 32 characters reaches into the type behind it, and from there
    into the address. -/
theorem ethProtocolSearch_misdirects :
    ∃ after, Answered none waiting after (radarAnswer (List.replicate 32 0x41)) 1 ∧
      ¬ CarriesDecision none waiting after (radarAnswer (List.replicate 32 0x41)) 1 := by
  have answered := radarAnswer_answered (List.replicate 32 0x41) rfl rfl
  refine ⟨_, answered, fun carries => ?_⟩
  have behind := (epCtlinfo_cntinfo_iff.mp (carries.made answered)).2.behind
  exact absurd behind (by decide)

end PtzAgx.EthLink.ConnectRequest
