import PtzAgx.EthLink.Discovery

/-! # Judged by their own bytes

The receive buffer of `eth_link.c` holds what the stack held there before, behind
the message. The handlers cast the message to records it need not contain, and
compare its serial number with a `strlen` that need not end in it.
-/

namespace PtzAgx.EthLink.Discovery

open Alink Bytes CString Object Words

/-! ## What an answer consists of -/

def devinfoPayload (serial : List UInt8) : List UInt8 :=
  littleBytes 4 3 ++ strncpy 64 serial ++ littleBytes 2 3 ++ littleBytes 2 1 ++
    strncpy 64 devinfoVersion

theorem length_devinfoPayload (serial : List UInt8) : (devinfoPayload serial).length = 136 := by
  simp only [devinfoPayload, List.length_append, length_strncpy, length_littleBytes]

theorem ethProtocolDevinfo_package (serial : List UInt8) {psDevInfo : List UInt8}
    (sized : psDevInfo.length = ethProtocolDevinfoSize) :
    ethProtocolPackage netprotocalMsgIdLookupResp (overlay psDevInfo (psDevInfo.take 9 ++
      devinfoPayload serial)) 136 =
      some (ethProtocolDevinfoSize,
        ethProtocolFrame netprotocalMsgIdLookupResp (devinfoPayload serial)) := by
  have size : psDevInfo.length = 147 := sized
  have front : (psDevInfo.take 9).length = 9 := List.length_take_of_le (by omega)
  have payload := length_devinfoPayload serial
  have whole : (overlay psDevInfo (psDevInfo.take 9 ++ devinfoPayload serial)).length =
      (devinfoPayload serial).length + 11 := by
    rw [length_overlay (by rw [List.length_append]; omega)]
    omega
  have placed :
    ((overlay psDevInfo (psDevInfo.take 9 ++ devinfoPayload serial)).drop ethProtocolHeadSize).take
      (devinfoPayload serial).length = devinfoPayload serial := by
    rw [overlay, List.append_assoc, ethProtocolHeadSize, List.drop_left' front, List.take_left]
  have made := ethProtocolPackage_eq netprotocalMsgIdLookupResp whole placed (by omega)
  rwa [payload] at made

/-- Nothing of the stack is sent. -/
theorem ethProtocolDevinfo_eq (serial : List UInt8) {psDevInfo : List UInt8}
    (sized : psDevInfo.length = ethProtocolDevinfoSize) :
    ethProtocolDevinfo serial psDevInfo =
      some (ethProtocolFrame netprotocalMsgIdLookupResp (devinfoPayload serial)) := by
  have size : psDevInfo.length = 147 := sized
  have front : (psDevInfo.take 9).length = 9 := List.length_take_of_le (by omega)
  have start : psDevInfo = overlay psDevInfo (psDevInfo.take 9) := by
    rw [overlay, front, List.take_append_drop]
  have packed := ethProtocolDevinfo_package serial sized
  simp only [devinfoPayload, ← List.append_assoc] at packed
  generalize psDevInfo.take 9 = head at front start packed
  rw [ethProtocolDevinfo, start]
  rw [write_bind front.symm (by simp; omega), write_bind (by simp [front]) (by simp; omega),
    write_bind (by simp [front]) (by simp; omega), write_bind (by simp [front]) (by simp; omega),
    write_bind (by simp [front]) (by simp; omega)]
  show (ethProtocolPackage _ _ 136 >>= _) = _
  rw [packed]
  rfl

theorem LinkCall.effect_total (s : LinkState) (call : LinkCall) :
    ∃ effect, ∀ psDevInfo : List UInt8, psDevInfo.length = ethProtocolDevinfoSize →
      call.effect s psDevInfo = some effect := by
  cases call with
  | nothing => exact ⟨⟨[], [], s.bFlagTick⟩, fun _ _ => rfl⟩
  | devinfoPkgSend =>
      let sent := ethLinkBroadcast s.bFlagTick (ethProtocolFrame netprotocalMsgIdLookupResp
        (devinfoPayload s.getSn))
      refine ⟨⟨sent.1, [], sent.2⟩, fun psDevInfo sized => ?_⟩
      rw [effect, ethProtocolDevinfo_eq s.getSn sized]
      rfl
  | createSocket type ip port => exact ⟨⟨[], [(type, ip, port)], s.bFlagTick⟩, fun _ _ => rfl⟩

/-! ## Which bytes decide -/

section Sn

variable {serial msg : List UInt8} {i : Nat}

theorem isSn_none (endless : 0 ∉ msg.drop i) : isSn serial msg i = none := by
  rw [isSn, strlen_eq_none_iff.mpr endless]
  rfl

theorem isSn_eq (ends : 0 ∈ msg.drop i) : isSn serial msg i = some (strAt msg i == serial) := by
  obtain ⟨len, measured⟩ := exists_strlen ends
  have short := strlen_lt measured
  rw [List.length_drop] at short
  rw [isSn, measured, Option.bind_some]
  by_cases same : serial.length = len
  · rw [if_pos same, slice_inside (by omega), take_drop_strlen measured]
    rfl
  · have differ : strAt msg i ≠ serial := by
      rintro rfl
      exact same (length_strAt measured)
    rw [if_neg same, beq_eq_false_iff_ne.mpr differ]

end Sn

section Handlers

variable {fuel : Nat} {s : LinkState} {msg : List UInt8} {uIp : UInt32}

theorem ethProtocolSearchHandler_isSome (uIp : UInt32) (psSearch : Nat)
    (walks : Walkable fuel s.psEthList) :
    (ethProtocolSearchHandler fuel s msg psSearch uIp).isSome ↔ 0 ∈ msg.drop (psSearch + 4) := by
  simp only [ethProtocolSearchHandler]
  cases first : msg[psSearch + 4]? with
  | none => simp [List.drop_of_length_le (List.getElem?_eq_none_iff.mp first)]
  | some b =>
      rw [Option.bind_some]
      by_cases zero : b = 0
      · subst zero
        obtain ⟨found, searched, -⟩ := findRemote_eq walks uIp
        simp [searched, strAt_zero first]
      · rw [if_pos zero]
        by_cases ends : 0 ∈ msg.drop (psSearch + 4)
        · simp [isSn_eq ends, ends]
        · simp [isSn_none ends, ends]

theorem cntinfoSocket_inside {psCntInfo : Nat} (inside : psCntInfo + 40 ≤ msg.length) :
    cntinfoSocket msg psCntInfo =
      some (.createSocket (UInt16.ofNat (littleEndian ((msg.drop (psCntInfo + 38)).take 2)))
        (htonl (UInt32.ofNat (littleEndian ((msg.drop (psCntInfo + 32)).take 4))))
        (UInt16.ofNat (littleEndian ((msg.drop (psCntInfo + 36)).take 2)))) := by
  rw [cntinfoSocket, slice_bind (by omega), slice_bind (by omega), slice_bind (by omega)]
  rfl

theorem ethProtocolCntinfoHandler_eq {psCntInfo : Nat} (ends : 0 ∈ msg.drop psCntInfo) :
    ethProtocolCntinfoHandler s msg psCntInfo =
      if strAt msg psCntInfo = [] ∨ strAt msg psCntInfo = s.getSn then cntinfoSocket msg psCntInfo
      else some .nothing := by
  unfold ethProtocolCntinfoHandler
  cases first : msg[psCntInfo]? with
  | none =>
      rw [List.drop_of_length_le (List.getElem?_eq_none_iff.mp first)] at ends
      cases ends
  | some b =>
      rw [Option.bind_some]
      by_cases zero : b = 0
      · subst zero
        simp [strAt_zero first]
      · simp [zero, isSn_eq ends, strAt_ne_nil first zero]

theorem ethProtocolCntinfoHandler_none {psCntInfo : Nat} (endless : 0 ∉ msg.drop psCntInfo) :
    ethProtocolCntinfoHandler s msg psCntInfo = none := by
  unfold ethProtocolCntinfoHandler
  cases first : msg[psCntInfo]? with
  | none => rfl
  | some b =>
      rw [Option.bind_some, isSn_none endless]
      by_cases zero : b = 0
      · subst zero
        exact absurd (strAt_zero first).2 endless
      · rw [if_pos zero]
        rfl

theorem ethProtocolSearchHandler_append {psSearch : Nat} (ends : 0 ∈ msg.drop (psSearch + 4))
    (rest : List UInt8) :
    ethProtocolSearchHandler fuel s (msg ++ rest) psSearch uIp =
      ethProtocolSearchHandler fuel s msg psSearch uIp := by
  have inside := List.length_pos_of_mem ends
  rw [List.length_drop] at inside
  have longer : 0 ∈ (msg ++ rest).drop (psSearch + 4) := by
    rw [drop_append_of_mem ends]
    exact List.mem_append_left rest ends
  simp only [ethProtocolSearchHandler, List.getElem?_append_left
    (show psSearch + 4 < msg.length by omega), isSn_eq ends, isSn_eq longer, strAt_append ends]

theorem cntinfoSocket_append {psCntInfo : Nat} (inside : psCntInfo + 40 ≤ msg.length)
    (rest : List UInt8) :
    cntinfoSocket (msg ++ rest) psCntInfo = cntinfoSocket msg psCntInfo := by
  have field (i n : Nat) (within : i + n ≤ msg.length) :
      slice (msg ++ rest) i n = slice msg i n := by
    rw [slice_inside within]
    exact slice_append (slice_inside within) rest
  simp only [cntinfoSocket, field (psCntInfo + 32) 4 (by omega), field (psCntInfo + 36) 2
    (by omega), field (psCntInfo + 38) 2 (by omega)]

theorem ethProtocolCntinfoHandler_append {psCntInfo : Nat} (ends : 0 ∈ msg.drop psCntInfo)
    (whole : strAt msg psCntInfo = [] ∨ strAt msg psCntInfo = s.getSn → psCntInfo + 40 ≤ msg.length)
    (rest : List UInt8) :
    ethProtocolCntinfoHandler s (msg ++ rest) psCntInfo =
      ethProtocolCntinfoHandler s msg psCntInfo := by
  have longer : 0 ∈ (msg ++ rest).drop psCntInfo := by
    rw [drop_append_of_mem ends]
    exact List.mem_append_left rest ends
  rw [ethProtocolCntinfoHandler_eq ends, ethProtocolCntinfoHandler_eq longer, strAt_append ends]
  split
  · rename_i connects
    exact cntinfoSocket_append (whole connects) rest
  · rfl

theorem ethProtocolHandler_append
    (accepted : ethProtocolAnalysis (Ptr.ofList msg) msg.length ≠ none)
    (short : msg.length ≤ 65535) (rest : List UInt8) :
    ethProtocolHandler fuel s (msg ++ rest) msg.length uIp =
      if MsgHead.msgid (Ptr.ofList msg) = netprotocalMsgIdLookup then
        ethProtocolSearchHandler fuel s (msg ++ rest) ethProtocolHeadSize uIp
      else if MsgHead.msgid (Ptr.ofList msg) = netprotocalMsgIdRequestConnect then
        ethProtocolCntinfoHandler s (msg ++ rest) ethProtocolHeadSize
      else some .nothing := by
  obtain ⟨again, same⟩ := ethProtocolAnalysis_append short accepted rest
  rw [ethProtocolHandler, again]
  simp only [same]

end Handlers

/-- No two contents of the buffer behind the message make a difference to it. -/
def JudgedAlone (fuel : Nat) (s : LinkState) (uIp : UInt32) (msg : List UInt8) : Prop :=
  ∀ m m' : LinkStack, msg <+: m.abyBuffer → msg <+: m'.abyBuffer →
    ∃ effect, m.handle fuel s msg.length uIp = some effect ∧
    m'.handle fuel s msg.length uIp = some effect

/-- A search ends its serial number; a connect request ends it too, and is complete
    if it is for this device. -/
def WithinItself (serial msg : List UInt8) : Prop :=
  (MsgHead.msgid (Ptr.ofList msg) = netprotocalMsgIdLookup →
    0 ∈ msg.drop (ethProtocolHeadSize + 4)) ∧
    (MsgHead.msgid (Ptr.ofList msg) = netprotocalMsgIdRequestConnect →
      0 ∈ msg.drop ethProtocolHeadSize ∧
        (strAt msg ethProtocolHeadSize = [] ∨ strAt msg ethProtocolHeadSize = serial →
          ethProtocolHeadSize + ethProtocolCntinfoSize ≤ msg.length))

section Alone

variable {fuel : Nat} {s : LinkState} {uIp : UInt32} {msg : List UInt8}

theorem length_filledWith (b : UInt8) (fits : msg.length ≤ 64) :
    (msg ++ List.replicate (64 - msg.length) b).length = 64 := by
  rw [List.length_append, List.length_replicate, Nat.add_sub_cancel' fits]

/-- The buffer filled up with one byte. -/
def filledWith (b : UInt8) (fits : msg.length ≤ 64) : LinkStack where
  abyBuffer := msg ++ List.replicate (64 - msg.length) b
  sDevInfo := List.replicate ethProtocolDevinfoSize 0
  received := length_filledWith b fits
  devinfo := List.length_replicate

theorem endless_filled {i n : Nat} (endless : 0 ∉ msg.drop i) :
    0 ∉ (msg ++ List.replicate n 1).drop i := by
  rw [List.drop_append, List.mem_append]
  rintro (own | behind)
  · exact endless own
  · exact absurd (List.eq_of_mem_replicate (List.mem_of_mem_drop behind)) (by decide)

theorem handle_of_call {call : LinkCall}
    (called : ∀ rest, ethProtocolHandler fuel s (msg ++ rest) msg.length uIp = some call) :
    JudgedAlone fuel s uIp msg := by
  rintro m m' ⟨rest, own⟩ ⟨rest', own'⟩
  obtain ⟨effect, done⟩ := call.effect_total s
  refine ⟨effect, ?_, ?_⟩
  · rw [LinkStack.handle, ← own, called rest]
    exact done m.sDevInfo m.devinfo
  · rw [LinkStack.handle, ← own', called rest']
    exact done m'.sDevInfo m'.devinfo

theorem calls_of_within (walks : Walkable fuel s.psEthList)
    (accepted : ethProtocolAnalysis (Ptr.ofList msg) msg.length ≠ none) (short : msg.length ≤ 65535)
    (within : WithinItself s.getSn msg) :
    ∃ call, ∀ rest, ethProtocolHandler fuel s (msg ++ rest) msg.length uIp = some call := by
  by_cases lookup : MsgHead.msgid (Ptr.ofList msg) = netprotocalMsgIdLookup
  · have ends := within.1 lookup
    obtain ⟨call, found⟩ :=
      Option.isSome_iff_exists.mp ((ethProtocolSearchHandler_isSome uIp _ walks).mpr ends)
    refine ⟨call, fun rest => ?_⟩
    rw [ethProtocolHandler_append accepted short, if_pos lookup,
      ethProtocolSearchHandler_append ends, found]
  · by_cases request : MsgHead.msgid (Ptr.ofList msg) = netprotocalMsgIdRequestConnect
    · obtain ⟨ends, whole⟩ := within.2 request
      obtain ⟨call, found⟩ :
        ∃ call, ethProtocolCntinfoHandler s msg ethProtocolHeadSize = some call := by
        rw [ethProtocolCntinfoHandler_eq ends]
        split
        · rename_i connects
          exact ⟨_, cntinfoSocket_inside (whole connects)⟩
        · exact ⟨.nothing, rfl⟩
      refine ⟨call, fun rest => ?_⟩
      rw [ethProtocolHandler_append accepted short, if_neg lookup, if_pos request,
        ethProtocolCntinfoHandler_append ends whole, found]
    · refine ⟨.nothing, fun rest => ?_⟩
      rw [ethProtocolHandler_append accepted short, if_neg lookup, if_neg request]

theorem JudgedAlone.called (alone : JudgedAlone fuel s uIp msg) (b : UInt8)
    (fits : msg.length ≤ 64) :
    ethProtocolHandler fuel s (msg ++ List.replicate (64 - msg.length) b) msg.length uIp
      ≠ none := by
  intro stuck
  obtain ⟨effect, done, -⟩ := alone (filledWith b fits) (filledWith b fits) (List.prefix_append _ _)
    (List.prefix_append _ _)
  rw [LinkStack.handle, filledWith, stuck] at done
  cases done

theorem type_filled (b : UInt8) (fits : msg.length ≤ 64) (short : msg.length < 49) :
    ∃ low : UInt8, littleEndian (((msg ++ List.replicate (64 - msg.length) b).drop 47).take 2) =
      low.toNat + 256 * b.toNat := by
  have length := length_filledWith b fits
  have high : (msg ++ List.replicate (64 - msg.length) b)[48] = b := by
    rw [List.getElem_append_right (by omega), List.getElem_replicate]
  refine ⟨(msg ++ List.replicate (64 - msg.length) b)[47], ?_⟩
  rw [List.drop_eq_getElem_cons (by omega), List.drop_eq_getElem_cons (by omega), high]
  rfl

section Whole

variable (accepted : ethProtocolAnalysis (Ptr.ofList msg) msg.length ≠ none)
  (request : MsgHead.msgid (Ptr.ofList msg) = netprotocalMsgIdRequestConnect)
  (ends : 0 ∈ msg.drop ethProtocolHeadSize)
  (connects : strAt msg ethProtocolHeadSize = [] ∨ strAt msg ethProtocolHeadSize = s.getSn)

include accepted request ends connects

/-- What an incomplete request for this device asks for depends on the filling. -/
theorem filledWith_asks (b : UInt8) (fits : msg.length ≤ 64) (short : msg.length < 49) :
    ∃ (low : UInt8) (ip : UInt32) (port : UInt16),
      (filledWith b fits).handle fuel s msg.length uIp =
      some ⟨[], [(UInt16.ofNat (low.toNat + 256 * b.toNat), ip, port)], s.bFlagTick⟩ := by
  obtain ⟨low, type⟩ := type_filled b fits short
  have length := length_filledWith b fits
  have other : MsgHead.msgid (Ptr.ofList msg) ≠ netprotocalMsgIdLookup := by
    rw [request]
    decide
  have longer : 0 ∈ (msg ++ List.replicate (64 - msg.length) b).drop ethProtocolHeadSize := by
    rw [drop_append_of_mem ends]
    exact List.mem_append_left _ ends
  obtain ⟨ip, port, asks⟩ : ∃ ip port,
      cntinfoSocket (msg ++ List.replicate (64 - msg.length) b) ethProtocolHeadSize =
        some (.createSocket (UInt16.ofNat (low.toNat + 256 * b.toNat)) ip port) := by
    rw [← type]
    exact ⟨_, _, cntinfoSocket_inside (by rw [length]; decide)⟩
  refine ⟨low, ip, port, ?_⟩
  rw [LinkStack.handle, filledWith, ethProtocolHandler_append accepted (by omega), if_neg other,
    if_pos request, ethProtocolCntinfoHandler_eq longer, strAt_append ends, if_pos connects, asks]
  rfl

theorem JudgedAlone.whole (alone : JudgedAlone fuel s uIp msg) (fits : msg.length ≤ 64) :
    ethProtocolHeadSize + ethProtocolCntinfoSize ≤ msg.length := by
  by_contra incomplete
  have short : msg.length < 49 := Nat.lt_of_not_le incomplete
  obtain ⟨low, ip, port, zeros⟩ := filledWith_asks accepted request ends connects 0 fits short
  obtain ⟨low', ip', port', ones⟩ := filledWith_asks accepted request ends connects 1 fits short
  obtain ⟨effect, done, done'⟩ :=
    alone (filledWith 0 fits) (filledWith 1 fits) (List.prefix_append _ _)
    (List.prefix_append _ _)
  rw [zeros] at done
  rw [ones] at done'
  have requests := congrArg LinkEffect.requests (Option.some.inj (done.trans done'.symm))
  have types := congrArg UInt16.toNat (congrArg Prod.fst (List.cons.inj requests).1)
  have bound := low.toNat_lt
  have bound' := low'.toNat_lt
  have zero : (0 : UInt8).toNat = 0 := rfl
  have one : (1 : UInt8).toNat = 1 := rfl
  rw [UInt16.toNat_ofNat', UInt16.toNat_ofNat', zero, one] at types
  omega

end Whole

end Alone

/-- A message is judged by its own bytes exactly if what is read of it is part of
    it. -/
theorem ethProtocolHandler_judgedAlone_iff (fuel : Nat) (s : LinkState) (uIp : UInt32)
    (msg : List UInt8)
    (walks : Walkable fuel s.psEthList)
    (accepted : ethProtocolAnalysis (Ptr.ofList msg) msg.length ≠ none)
    (fits : msg.length ≤ 64) : JudgedAlone fuel s uIp msg ↔ WithinItself s.getSn msg := by
  have short : msg.length ≤ 65535 := by omega
  constructor
  · intro alone
    have called := alone.called 1 fits
    rw [ethProtocolHandler_append accepted short] at called
    constructor
    · intro lookup
      by_contra endless
      rw [if_pos lookup] at called
      exact called (Option.not_isSome_iff_eq_none.mp
        (mt (ethProtocolSearchHandler_isSome uIp ethProtocolHeadSize walks).mp
          (endless_filled endless)))
    · intro request
      have other : MsgHead.msgid (Ptr.ofList msg) ≠ netprotocalMsgIdLookup := by
        rw [request]
        decide
      rw [if_neg other, if_pos request] at called
      have ends : 0 ∈ msg.drop ethProtocolHeadSize := by
        by_contra endless
        exact called (ethProtocolCntinfoHandler_none (endless_filled endless))
      exact ⟨ends, fun connects => JudgedAlone.whole accepted request ends connects alone fits⟩
  · intro within
    obtain ⟨call, called⟩ := calls_of_within walks accepted short within
    exact handle_of_call called

/-- A connect request whose payload is one zero byte. -/
def shortRequest : List UInt8 := ethProtocolFrame netprotocalMsgIdRequestConnect [0]

theorem shortRequest_accepted :
    ethProtocolAnalysis (Ptr.ofList shortRequest) shortRequest.length ≠ none := by
  rw [shortRequest, ethProtocolFrame_analysis _ _ (by decide)]
  exact Option.some_ne_none _

theorem ethProtocolHandler_judgedAlone_iff_short :
    JudgedAlone 1 oneRemoteState 0 shortRequest ↔ WithinItself oneRemoteState.getSn shortRequest :=
  ethProtocolHandler_judgedAlone_iff 1 oneRemoteState 0 shortRequest oneRemote_walkable
    shortRequest_accepted (by decide)

/-- Which connection it asks for is up to what the stack held before. -/
theorem ethProtocolHandler_judgesStack : ¬ JudgedAlone 1 oneRemoteState 0 shortRequest := by
  intro alone
  have ends : 0 ∈ shortRequest.drop ethProtocolHeadSize := by decide
  have whole := JudgedAlone.whole shortRequest_accepted rfl ends (.inl rfl) alone (by decide)
  exact absurd whole (by decide)

end PtzAgx.EthLink.Discovery
