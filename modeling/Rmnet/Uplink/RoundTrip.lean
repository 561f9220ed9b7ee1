import Rmnet.Linear.Ingress
import Rmnet.Uplink.Egress

/-!
# What the uplink frames, the downlink parses

The frames that `rmnet_map_egress_handler` builds and the aggregation packs into buffers are given to
`rmnet_map_deaggregate` and `__rmnet_map_ingress_handler` of a port with the matching format.  Every packet
comes out again, in order, at the device of its mux id.

* `parse_frame` — the QMAP header of a frame, as the downlink reads it;
* `mapIngress_frame`, `mapIngressLoop_frames` — one frame, and a buffer of frames;
* `egressStep_inv` — the buffers that the uplink produces are groups of whole frames, and never too long;
* `egress_ingress_inverse` — the round trip, over every run of the uplink.
-/

namespace Rmnet

open Word Field Transition

/-! ### Packets and formats -/

/-- A packet that the uplink takes: between 1 and 65535 bytes, for a mux id below 255, and not exempt from
aggregation. -/
structure UlPacket where
  tx : TxSkb
  muxId : ℕ
  coherent : tx.skb.Coherent
  len_pos : 0 < tx.skb.len
  len_le : tx.skb.len ≤ 65535
  mux_lt : muxId < maxLogicalEp
  not_exempt : rmnetMapTxAggSkip tx 0 = false

/-- The bytes of a packet. -/
def UlPacket.bytes (p : UlPacket) : Bytes := p.tx.skb.bytes

/-- The bytes of the frame around a packet. -/
def UlPacket.frame (dataFormat : ℕ) (p : UlPacket) : Bytes := egressHeaders dataFormat p.muxId p.tx ++ p.bytes

/-- The formats of the two ends match: no checksum headers at all, or those of version 5. -/
inductive MatchingFormats (tx rx : ℕ) : Prop
  | plain : egressMapCksumv4 tx = false → egressMapCksumv5 tx = false → egressPriority tx = false →
      ingressMapCksumv4 rx = false → ingressMapCksumv5 rx = false → MatchingFormats tx rx
  | cksumv5 : egressMapCksumv4 tx = false → egressMapCksumv5 tx = true →
      ingressMapCksumv4 rx = false → ingressMapCksumv5 rx = true → MatchingFormats tx rx

theorem MatchingFormats.egressV4 {tx rx : ℕ} (h : MatchingFormats tx rx) : egressMapCksumv4 tx = false := by
  cases h with
  | plain h => exact h
  | cksumv5 h => exact h

theorem MatchingFormats.ingressV4 {tx rx : ℕ} (h : MatchingFormats tx rx) : ingressMapCksumv4 rx = false := by
  cases h with
  | plain _ _ _ h => exact h
  | cksumv5 _ _ h => exact h

theorem MatchingFormats.v5_eq {tx rx : ℕ} (h : MatchingFormats tx rx) :
    ingressMapCksumv5 rx = egressMapCksumv5 tx := by
  cases h with
  | plain _ h _ _ h' => rw [h, h']
  | cksumv5 _ h _ h' => rw [h, h']

theorem MatchingFormats.additional {tx rx : ℕ} (h : MatchingFormats tx rx) :
    additionalHeaderLen tx = if egressMapCksumv5 tx then 4 else 0 := by
  unfold additionalHeaderLen
  rw [h.egressV4]
  cases h with
  | plain _ h₅ hp => simp [h₅, hp]
  | cksumv5 _ h₅ => simp [h₅, v5CsumHeaderSize]

/-! ### One frame, as the downlink reads it -/

theorem UlPacket.bytes_length (p : UlPacket) : p.bytes.length = p.tx.skb.len := p.coherent.len_eq.symm

theorem UlPacket.frame_length {tx rx : ℕ} (h : MatchingFormats tx rx) (p : UlPacket) :
    (p.frame tx).length = 4 + additionalHeaderLen tx + p.tx.skb.len := by
  rw [UlPacket.frame, List.length_append, egressHeaders_length _ _ h.egressV4, p.bytes_length, mapHeaderSize]

/-- The QMAP header of a frame: the length is that of the packet. -/
theorem parse_frame (dataFormat : ℕ) (p : UlPacket) (rest : Bytes) :
    MapHeader.parse (p.frame dataFormat ++ rest)
      = { padLen := 0
          nextHdr := egressMapCksumv5 dataFormat
          cdBit := false
          muxId := p.muxId
          pktLen := p.tx.skb.len } := by
  have hmux : p.muxId < 255 := p.mux_lt
  rw [UlPacket.frame, List.append_assoc, parse_egressHeaders dataFormat p.muxId p.tx p.len_le,
    Nat.mod_eq_of_lt (by omega)]

/-- The header behind the QMAP header. -/
theorem type_frame {tx : ℕ} (p : UlPacket) (rest : Bytes) (hv5 : egressMapCksumv5 tx = true) :
    (V5CsumHeader.parse ((p.frame tx ++ rest).drop 4)).headerType = headerTypeCsumOffload := by
  have hdrop : (p.frame tx ++ rest).drop 4 = ulCsumHeader tx p.tx ++ (p.bytes ++ rest) := by
    simp [UlPacket.frame, egressHeaders, be16]
  rw [hdrop, ulCsumHeader, hv5, Bool.true_or, if_pos rfl]
  simp [V5CsumHeader.parse, byteAt, v5UlHeader, headerTypeCsumOffload]

/-- The length that the downlink takes for a frame is the frame's. -/
theorem mapPacketLen_frame {tx rx : ℕ} (h : MatchingFormats tx rx) (p : UlPacket) (rest : Bytes) :
    mapPacketLen rx (MapHeader.parse (p.frame tx ++ rest)) = (p.frame tx).length := by
  rw [parse_frame, p.frame_length h, h.additional]
  unfold mapPacketLen mapNextHdr
  simp only [h.ingressV4, h.v5_eq, mapHeaderSize, v5CsumHeaderSize]
  cases egressMapCksumv5 tx with
  | true =>
    simp
    omega
  | false =>
    simp
    omega

/-! ### The downlink on frames -/

/-- What a call leaves as it is on the receiving port. -/
structure SameRx (port port' : RmnetPort) : Prop where
  dataFormat : port'.dataFormat = port.dataFormat
  endpoint : port'.endpoint = port.endpoint
  alloc : port'.alloc = port.alloc

theorem SameRx.refl (port : RmnetPort) : SameRx port port := ⟨rfl, rfl, rfl⟩

theorem SameRx.trans {a b c : RmnetPort} (h : SameRx a b) (h' : SameRx b c) : SameRx a c :=
  ⟨h'.dataFormat.trans h.dataFormat, h'.endpoint.trans h.endpoint, h'.alloc.trans h.alloc⟩

theorem SameRx.bump (port : RmnetPort) (dev : NetDevice) (stat : PrivStat) (n : ℕ) :
    SameRx port (port.bump (some dev) stat n) := ⟨rfl, rfl, rfl⟩

/-- The delivery that a packet should have: at the device of its mux id, with its bytes. -/
def UlPacket.delivery (endpoint : ℕ → Option NetDevice) (p : UlPacket) : Option (NetDevice × Bytes) :=
  (endpoint p.muxId).map fun dev => (dev, p.bytes)

/-- The device and the bytes of a delivery. -/
def Delivery.content (d : Delivery) : NetDevice × Bytes := (d.1, d.2.bytes)

section

variable (skipExthdr : Bytes → ℕ → ℕ → SkipExthdr)
  (dlCsum : RmnetPort → NetDevice → SkBuff → ℕ → RmnetPort × Bool)

/-- Pulling headers off a linear buffer, whatever its checksum status. -/
theorem pskbPull_status {b : Bytes} {n : ℕ} (h : n ≤ b.length) (status : IpSummed) :
    pskbPull { linearSkb b with ipSummed := status } n = { linearSkb (b.drop n) with ipSummed := status } := by
  unfold pskbPull linearSkb
  simp only [if_neg (Nat.not_lt.mpr h), Nat.sub_eq_zero_of_le h, pullFrags, List.length_drop]

theorem moveHeaders_status (b : Bytes) (status : IpSummed) :
    rmnetMapMoveHeaders skipExthdr { linearSkb b with ipSummed := status }
      = { linearSkb b with ipSummed := status } := by
  unfold rmnetMapMoveHeaders
  rw [if_pos (by simp [SkBuff.nonlinear, linearSkb])]

/-- A buffer that is no longer than asked is not trimmed. -/
theorem pskbTrim_status {b : Bytes} {n : ℕ} (h : b.length ≤ n) (status : IpSummed) :
    pskbTrim { linearSkb b with ipSummed := status } n = { linearSkb b with ipSummed := status } :=
  if_pos h

/-- A checksum-offload frame on the linear path: the packet without its headers. -/
theorem mapProcessNextHdr_csum (port : RmnetPort) (dev : NetDevice) {b : Bytes} (hlen : 8 ≤ b.length)
    (htype : (V5CsumHeader.parse (b.drop 4)).headerType = headerTypeCsumOffload) :
    ∃ port' skb, rmnetMapProcessNextHdrPacket skipExthdr port dev (linearSkb b) (b.length - 8)
        = (port', some [skb]) ∧ SameRx port port' ∧ skb.bytes = b.drop 8 := by
  have hread : V5CsumHeader.parse (memBytes (rmnetMapDataPtr (linearSkb b)) mapHeaderSize v5CsumHeaderSize)
      = V5CsumHeader.parse (b.drop 4) := by
    rw [memBytes_linear (by rw [mapHeaderSize, v5CsumHeaderSize]; omega), V5CsumHeader.parse_take]
    rfl
  unfold rmnetMapProcessNextHdrPacket
  simp only [hread]
  rw [if_neg (by rw [htype]; decide), if_pos htype]
  generalize csumOffloadStat (some dev) (V5CsumHeader.parse (b.drop 4)) = r
  obtain ⟨stat, valid⟩ := r
  refine ⟨_, { linearSkb (b.drop 8) with ipSummed := if valid then .checksumUnnecessary else .checksumNone }, ?_,
    SameRx.bump port dev stat 1, ?_⟩
  · have hskb : ∀ status, pskbTrim (rmnetMapMoveHeaders skipExthdr
        (pskbPull { linearSkb b with ipSummed := status } 8)) (b.length - 8)
          = { linearSkb (b.drop 8) with ipSummed := status } := by
      intro status
      rw [pskbPull_status hlen, moveHeaders_status, pskbTrim_status (by rw [List.length_drop])]
    cases valid with
    | true => exact congrArg (fun skb => (port.bump (some dev) stat 1, some [skb])) (hskb .checksumUnnecessary)
    | false => exact congrArg (fun skb => (port.bump (some dev) stat 1, some [skb])) (hskb .checksumNone)
  · exact linearSkb_bytes (b.drop 8)

/-- **One frame.**  The ingress handler delivers the packet of a frame to the device of its mux id. -/
theorem mapIngress_frame {tx : ℕ} (port : RmnetPort) (h : MatchingFormats tx port.dataFormat) (p : UlPacket) :
    ∃ port' out, rmnetMapIngressSkb skipExthdr dlCsum port (linearSkb (p.frame tx)) = (port', out) ∧
      SameRx port port' ∧ out.map Delivery.content = (p.delivery port.endpoint).toList := by
  have hflen := p.frame_length h
  have hle := p.len_le
  have hparse := parse_frame tx p []
  rw [List.append_nil] at hparse
  have hhdr := mapHeaderOf_linear (show mapHeaderSize ≤ (p.frame tx).length by rw [mapHeaderSize]; omega)
  rw [hparse] at hhdr
  have hunpadded : sub16 p.tx.skb.len 0 = p.tx.skb.len := by
    rw [sub16_of_le (Nat.zero_le _) (by omega), Nat.sub_zero]
  have hbytes : (p.frame tx).drop (4 + additionalHeaderLen tx) = p.bytes := by
    rw [UlPacket.frame, ← mapHeaderSize, ← egressHeaders_length p.muxId p.tx h.egressV4, List.drop_left]
  unfold rmnetMapIngressSkb
  simp only [hhdr, MapHeader.unpadded, hunpadded, nextHdrFrame, Bool.false_eq_true, if_false]
  rw [if_neg (Nat.not_le.mpr p.mux_lt)]
  unfold UlPacket.delivery
  cases hep : port.endpoint p.muxId with
  | none => exact ⟨port, [], rfl, .refl port, rfl⟩
  | some dev =>
    cases hv5 : egressMapCksumv5 tx with
    | true =>
      have hadd : additionalHeaderLen tx = 4 := by rw [h.additional, hv5, if_pos rfl]
      have htype := type_frame p [] hv5
      rw [List.append_nil] at htype
      obtain ⟨port', skb, hnext, hsame, hskb⟩ :=
        mapProcessNextHdr_csum skipExthdr port dev (show 8 ≤ (p.frame tx).length by omega) htype
      rw [show (p.frame tx).length - 8 = p.tx.skb.len by omega] at hnext
      refine ⟨port', [(dev, skb)], ?_, hsame, ?_⟩
      · simp only [h.v5_eq, hv5, Bool.or_true, Bool.and_self, if_true, hnext, List.map_cons, List.map_nil]
      · rw [hadd] at hbytes
        simp only [List.map_cons, List.map_nil, Delivery.content, hskb, hbytes, Option.map_some, Option.toList_some]
    | false =>
      have hadd : additionalHeaderLen tx = 0 := by rw [h.additional, hv5, if_neg Bool.false_ne_true]
      rw [hadd] at hbytes
      refine ⟨port, [(dev, linearSkb p.bytes)], ?_, .refl port, ?_⟩
      · have hpull := pskbPull_linear (show mapHeaderSize ≤ (p.frame tx).length by rw [mapHeaderSize]; omega)
        have htrim := pskbTrim_status (le_of_eq p.bytes_length) .checksumNone
        simp only [Bool.false_and, Bool.false_eq_true, if_false, h.ingressV4, hpull]
        rw [show (p.frame tx).drop mapHeaderSize = p.bytes from hbytes]
        exact congrArg (fun skb => (port, [(dev, skb)])) htrim
      · simp only [List.map_cons, List.map_nil, Delivery.content, linearSkb_bytes, Option.map_some,
          Option.toList_some]

/-- **A buffer of frames.**  By induction on the frames: the loop cuts the first one off, handles it, and goes
on with the rest. -/
theorem mapIngressLoop_frames (behind : ℕ → UInt8) {tx : ℕ} (ps : List UlPacket) :
    ∀ (fuel : ℕ) (port : RmnetPort), MatchingFormats tx port.dataFormat → port.AllocOk →
      ((ps.map (UlPacket.frame tx)).flatten).length < 2147483648 → ps.length < fuel →
      ∃ port' out, mapIngressLoop skipExthdr dlCsum behind fuel port
          (linearSkb (ps.map (UlPacket.frame tx)).flatten) = some (port', out) ∧
        SameRx port port' ∧ out.map Delivery.content = ps.filterMap (UlPacket.delivery port.endpoint) := by
  induction ps with
  | nil =>
    intro fuel port _ _ _ hfuel
    obtain ⟨fuel, rfl⟩ : ∃ k, fuel = k + 1 := ⟨fuel - 1, by omega⟩
    have hnull : rmnetMapDeaggregate behind port (linearSkb []) = (port, .null) := by
      unfold rmnetMapDeaggregate
      simp only [linearSkb_len, List.length_nil, if_true]
    refine ⟨port, [], ?_, .refl port, rfl⟩
    rw [List.map_nil, List.flatten_nil, mapIngressLoop, hnull]
  | cons p ps ih =>
    intro fuel port hfmt halloc hshort hfuel
    obtain ⟨fuel, rfl⟩ : ∃ k, fuel = k + 1 := ⟨fuel - 1, by omega⟩
    rw [List.map_cons, List.flatten_cons] at hshort ⊢
    have hcut := mapDeaggregate_cut behind halloc ⟨p.frame tx ++ (ps.map (UlPacket.frame tx)).flatten, hshort⟩
      (mapPacketLen_frame hfmt p _) (by rw [parse_frame]; exact Nat.ne_of_gt p.len_pos)
      (by rw [List.length_append]; omega) ?_
    · rw [List.take_left, List.drop_left] at hcut
      obtain ⟨port₁, out₁, hone, hsame₁, hout₁⟩ := mapIngress_frame skipExthdr dlCsum port hfmt p
      obtain ⟨port₂, out₂, hrest, hsame₂, hout₂⟩ := ih fuel port₁ (by rw [hsame₁.dataFormat]; exact hfmt)
        (by unfold RmnetPort.AllocOk; rw [hsame₁.alloc]; exact halloc)
        (by rw [List.length_append] at hshort; omega) (by rw [List.length_cons] at hfuel; omega)
      refine ⟨port₂, out₁ ++ out₂, ?_, hsame₁.trans hsame₂, ?_⟩
      · rw [mapIngressLoop, hcut]
        simp only [hone, hrest, Option.map_some]
      · rw [List.map_append, hout₁, hout₂, hsame₁.endpoint, List.filterMap_cons]
        cases p.delivery port.endpoint with
        | none => rfl
        | some d => rfl
    · intro hnext
      have hv5 : egressMapCksumv5 tx = true := by
        simp only [mapNextHdr, hfmt.v5_eq, Bool.and_eq_true] at hnext
        exact hnext.1.2
      have htype := type_frame p (ps.map (UlPacket.frame tx)).flatten hv5
      rw [V5CsumHeader.parse, byteAt_drop] at htype
      intro hcoal
      exact absurd (htype.symm.trans hcoal) (by decide)

/-- The buffers of a list, received one after another. -/
def receiveBuffers (behind : ℕ → UInt8) (port : RmnetPort) : List Bytes → Option (RmnetPort × List Delivery)
  | [] => some (port, [])
  | buf :: rest =>
      match mapIngressLoop skipExthdr dlCsum behind (buf.length + 1) port (linearSkb buf) with
      | none => none
      | some (port, out) => (receiveBuffers behind port rest).map fun r => (r.1, out ++ r.2)

/-- A frame has bytes, so a buffer has no more frames than bytes. -/
theorem frames_length_le {tx rx : ℕ} (h : MatchingFormats tx rx) (ps : List UlPacket) :
    ps.length ≤ ((ps.map (UlPacket.frame tx)).flatten).length := by
  induction ps with
  | nil => exact le_rfl
  | cons p ps ih =>
    have hlen := p.frame_length h
    rw [List.map_cons, List.flatten_cons, List.length_append, List.length_cons]
    omega

/-- Buffers of whole frames, in whatever groups. -/
theorem receiveBuffers_groups (behind : ℕ → UInt8) {tx : ℕ} (groups : List (List UlPacket)) :
    ∀ port : RmnetPort, MatchingFormats tx port.dataFormat → port.AllocOk →
      (∀ g ∈ groups, ((g.map (UlPacket.frame tx)).flatten).length < 2147483648) →
      ∃ port' out, receiveBuffers skipExthdr dlCsum behind port
          (groups.map fun g => (g.map (UlPacket.frame tx)).flatten) = some (port', out) ∧
        out.map Delivery.content = groups.flatten.filterMap (UlPacket.delivery port.endpoint) := by
  induction groups with
  | nil =>
    intro port _ _ _
    exact ⟨port, [], rfl, rfl⟩
  | cons g groups ih =>
    intro port hfmt halloc hshort
    have hfuel := frames_length_le hfmt g
    obtain ⟨port₁, out₁, hone, hsame, hout₁⟩ := mapIngressLoop_frames skipExthdr dlCsum behind g
      (((g.map (UlPacket.frame tx)).flatten).length + 1) port hfmt halloc (hshort g (by simp)) (by omega)
    obtain ⟨port₂, out₂, hrest, hout₂⟩ := ih port₁ (by rw [hsame.dataFormat]; exact hfmt)
      (by unfold RmnetPort.AllocOk; rw [hsame.alloc]; exact halloc)
      (fun g' hg' => hshort g' (List.mem_cons_of_mem _ hg'))
    refine ⟨port₂, out₁ ++ out₂, ?_, ?_⟩
    · rw [List.map_cons, receiveBuffers, hone]
      simp only [hrest, Option.map_some]
    · rw [List.map_append, hout₁, hout₂, hsame.endpoint, List.flatten_cons, List.filterMap_append]

end

/-! ### The uplink -/

/-- The buffers of a port are short: those transmitted, and the pending one by the number of its frames. -/
structure ShortBuffers (port : UlPort) : Prop where
  sent : ∀ b ∈ port.sent, b.length < 2147483648
  pending : port.pendingBytes.length ≤ port.aggCount * 65543
  count : port.aggCount < 256
  params : port.egressAggParams.aggCount < 256

theorem ShortBuffers.pending_lt {port : UlPort} (h : ShortBuffers port) :
    port.pendingBytes.length < 2147483648 := by
  have h₁ := h.pending
  have h₂ := h.count
  omega

theorem pendingBytes_some {port : UlPort} {agg : AggSkb} (h : port.aggSkb = some agg) :
    port.pendingBytes = agg.data := by
  simp [UlPort.pendingBytes, h]

theorem pendingBytes_none {port : UlPort} (h : port.aggSkb = none) : port.pendingBytes = [] := by
  simp [UlPort.pendingBytes, h]

/-- The fields that `ShortBuffers` is about. -/
theorem ShortBuffers.congr {port port' : UlPort} (h : ShortBuffers port) (hsent : port'.sent = port.sent)
    (hskb : port'.aggSkb = port.aggSkb) (hcount : port'.aggCount = port.aggCount)
    (hparams : port'.egressAggParams.aggCount < 256) : ShortBuffers port' := by
  refine ⟨by rw [hsent]; exact h.sent, ?_, by rw [hcount]; exact h.count, hparams⟩
  have hpend : port'.pendingBytes = port.pendingBytes := by
    unfold UlPort.pendingBytes
    rw [hskb]
  rw [hpend, hcount]
  exact h.pending

/-- With no pending buffer, only what was transmitted counts. -/
theorem shortBuffers_none {port : UlPort} (hsent : ∀ b ∈ port.sent, b.length < 2147483648)
    (hnone : port.aggSkb = none) (hcount : port.aggCount < 256) (hparams : port.egressAggParams.aggCount < 256) :
    ShortBuffers port := by
  refine ⟨hsent, ?_, hcount, hparams⟩
  rw [pendingBytes_none hnone]
  exact Nat.zero_le _

/-- Transmissions of short buffers, after the unlock. -/
theorem ShortBuffers.execPosts (posts : List Post) :
    ∀ port : UlPort, ShortBuffers port →
      (∀ buf, Post.devQueueXmit buf ∈ posts → buf.length < 2147483648) → ShortBuffers (execPosts port posts) := by
  induction posts with
  | nil =>
    intro port h _
    exact h
  | cons post posts ih =>
    intro port h hbuf
    refine ih (execPost port post) ?_ fun buf hb => hbuf buf (List.mem_cons_of_mem _ hb)
    cases post with
    | hrtimerCancel => exact h.congr rfl rfl rfl h.params
    | newPacket => exact h
    | devQueueXmit buf =>
      refine ⟨?_, h.pending, h.count, h.params⟩
      intro b hb
      rcases List.mem_append.mp hb with hb | hb
      · exact h.sent b hb
      · rw [List.mem_singleton.mp hb]
        exact hbuf buf (by simp)

/-- One pass of the aggregation, with what it leaves to do after the unlock. -/
theorem shortBuffers_pass {skb : SkBuff} {port port' : UlPort} {posts : List Post}
    (hlen : skb.bytes.length ≤ 65543) (h : ShortBuffers port) (hpass : TxPass skb port port' posts) :
    ShortBuffers (execPosts port' posts) := by
  have hcnt := h.count
  have hpar := h.params
  cases hpass with
  | sendFirst agg rest hagg hem hrest =>
    have hport : ShortBuffers port' :=
      shortBuffers_none (by rw [hem.sent]; exact h.sent) hem.aggSkb (by rw [hem.aggCount]; omega)
        (by rw [hem.params]; exact hpar)
    refine ShortBuffers.execPosts _ _ hport ?_
    intro buf hbuf
    have hpend := h.pending_lt
    rw [pendingBytes_some hagg] at hpend
    rcases hrest with rfl | rfl
    · simp only [List.mem_cons, reduceCtorEq, Post.devQueueXmit.injEq, List.not_mem_nil, or_false, false_or] at hbuf
      rcases hbuf with rfl | rfl
      · exact hpend
      · omega
    · simp only [List.mem_cons, reduceCtorEq, Post.devQueueXmit.injEq, List.not_mem_nil, or_false, false_or] at hbuf
      rw [hbuf]
      exact hpend
  | direct hnone hsame hnone' hcount =>
    have hport : ShortBuffers port' :=
      shortBuffers_none (by rw [hsame.sent]; exact h.sent) hnone' (by omega) (by rw [hsame.params]; exact hpar)
    refine ShortBuffers.execPosts _ _ hport ?_
    intro buf hbuf
    simp only [List.mem_singleton, Post.devQueueXmit.injEq] at hbuf
    rw [hbuf]
    omega
  | opened agg hnone hsch hsome hdata hcount =>
    refine ⟨by rw [execPosts, List.foldl_nil, hsch.sent]; exact h.sent, ?_, ?_, ?_⟩
    · show port'.pendingBytes.length ≤ port'.aggCount * 65543
      rw [pendingBytes_some hsome, hdata, hcount]
      omega
    · show port'.aggCount < 256
      omega
    · show port'.egressAggParams.aggCount < 256
      rw [hsch.params]
      exact hpar
  | appended agg agg' hsome hsch hsome' hdata hlt hcount =>
    have hpend := h.pending
    rw [pendingBytes_some hsome] at hpend
    rw [u8_of_lt (by omega)] at hcount
    refine ⟨by rw [execPosts, List.foldl_nil, hsch.sent]; exact h.sent, ?_, ?_, ?_⟩
    · show port'.pendingBytes.length ≤ port'.aggCount * 65543
      rw [pendingBytes_some hsome', hdata, hcount, List.length_append]
      omega
    · show port'.aggCount < 256
      omega
    · show port'.egressAggParams.aggCount < 256
      rw [hsch.params]
      exact hpar

/-- A call of the aggregation. -/
theorem shortBuffers_aggregate {skb : SkBuff} (hc : skb.Coherent) (hlen : skb.bytes.length ≤ 65543)
    (env : ℕ → TxEnv) (fuel : ℕ) :
    ∀ (k k' : ℕ) (port port' : UlPort), ShortBuffers port →
      rmnetMapTxAggregate skb env fuel k port = .ok (port', k') → ShortBuffers port' := by
  induction fuel with
  | zero =>
    intro k k' port port' _ h
    cases h
  | succ fuel ih =>
    intro k k' port port' hs h
    rw [rmnetMapTxAggregate] at h
    split at h
    · cases h
    · rename_i port₁ posts hlocked
      have hpass := shortBuffers_pass hlen hs (txAggregateLocked_cases hc hlocked)
      simp only at h
      split at h
      · exact ih _ _ _ _ hpass h
      · cases h
        exact hpass

/-! ### Runs of the uplink -/

/-- What happens on the uplink: packets, with the outcome of the allocation of headroom, the timer and its work,
and new parameters. -/
inductive EgressOp
  | packet (p : UlPacket) (expand : Bool) (env : ℕ → TxEnv)
  | hrtimerFires
  | flushWork
  | updateConfig (size count features time : ℕ) (pages : List ℕ)

/-- The packets that an operation submits: one that has no memory for its headers is dropped. -/
def EgressOp.packets (dataFormat : ℕ) : EgressOp → List UlPacket
  | .packet p expand _ =>
      if p.tx.headroom < mapHeaderSize + additionalHeaderLen dataFormat ∧ expand = false then [] else [p]
  | _ => []

/-- The buffers of a port: those transmitted, and the one that a flush would transmit now. -/
def UlPort.buffers (port : UlPort) : List Bytes := port.sent ++ (port.aggSkb.map AggSkb.data).toList

section

variable (v4Csum : TxSkb → TxSkb)

/-- One operation.  A buffer that the handler gives back is transmitted by `rmnet_egress_handler`. -/
def egressStep (port : UlPort) : EgressOp → Option UlPort
  | .packet p expand env =>
      match rmnetMapEgressHandler v4Csum port p.muxId p.tx expand env with
      | .error _ => none
      | .ok (port, .transmit skb) => some { port with sent := port.sent ++ [skb.bytes] }
      | .ok (port, .inProgress) => some port
      | .ok (port, .enomem) => some port
  | .hrtimerFires => some (rmnetMapFlushTxPacketQueue port)
  | .flushWork => some (rmnetMapFlushTxPacketWork port)
  | .updateConfig size count features time pages =>
      some (rmnetMapUpdateUlAggConfig size count features time pages port)

/-- The invariant of a run: the aggregation has the frames of the packets submitted so far on its ledger. -/
structure EgressInv (dataFormat : ℕ) (done : List EgressOp) (port : UlPort) : Prop where
  format : port.dataFormat = dataFormat
  short : ShortBuffers port
  ledger : ∃ uops, UlInv uops port ∧
    uops.flatMap UlOp.submitted = (done.flatMap (EgressOp.packets dataFormat)).map (UlPacket.frame dataFormat)

/-- A step of the aggregation extends the ledger by the frames of its packets. -/
theorem EgressInv.ulStep {dataFormat : ℕ} {done : List EgressOp} {port port' : UlPort} {op : EgressOp}
    (h : EgressInv dataFormat done port) (uop : UlOp) (hstep : ulStep port uop = some port')
    (hsub : uop.submitted = (op.packets dataFormat).map (UlPacket.frame dataFormat))
    (hfmt : port'.dataFormat = port.dataFormat) (hshort : ShortBuffers port') :
    EgressInv dataFormat (done ++ [op]) port' := by
  obtain ⟨uops, hinv, hframes⟩ := h.ledger
  refine ⟨hfmt.trans h.format, hshort, uops ++ [uop], ulStep_inv uops port uop port' hinv hstep, ?_⟩
  rw [List.flatMap_append, List.flatMap_singleton, hframes, hsub, List.flatMap_append, List.flatMap_singleton,
    List.map_append]

theorem shortBuffers_flush {port : UlPort} (h : ShortBuffers port) :
    ShortBuffers (rmnetMapFlushTxPacketWork port) := by
  have hport : ShortBuffers { port with aggWqQueued := false } := h.congr rfl rfl rfl h.params
  unfold rmnetMapFlushTxPacketWork flushTxPacketLocked
  simp only
  split
  · cases hagg : port.aggSkb with
    | none => exact hport.congr rfl hagg.symm rfl h.params
    | some agg =>
      have hpend := h.pending_lt
      rw [pendingBytes_some hagg] at hpend
      refine ShortBuffers.execPosts _ _ (shortBuffers_none h.sent rfl (by simp [resetAgg]) h.params) ?_
      intro buf hbuf
      simp only [List.mem_singleton, Post.devQueueXmit.injEq] at hbuf
      rw [hbuf]
      exact hpend
  · exact hport

/-- **One operation of the uplink.**  The frames on the ledger are those of the packets submitted. -/
theorem egressStep_inv {dataFormat : ℕ} (hagg : dataFormat.testBit egressFormatAggregation = true)
    (hv4 : egressMapCksumv4 dataFormat = false) (done : List EgressOp) (port : UlPort) (op : EgressOp)
    (port' : UlPort) (h : EgressInv dataFormat done port) (hstep : egressStep v4Csum port op = some port') :
    EgressInv dataFormat (done ++ [op]) port' := by
  have hf := h.format
  cases op with
  | packet p expand env =>
    have hle := p.len_le
    by_cases hroom : p.tx.headroom < mapHeaderSize + additionalHeaderLen dataFormat ∧ expand = false
    · -- no memory: the packet is dropped and nothing changes
      simp only [egressStep, rmnetMapEgressHandler_enomem v4Csum port p.muxId p.tx expand env (hf ▸ hroom),
        Option.some.injEq] at hstep
      subst hstep
      obtain ⟨uops, hinv, hframes⟩ := h.ledger
      refine ⟨h.format, h.short, uops, hinv, ?_⟩
      rw [hframes, List.flatMap_append, List.flatMap_singleton, EgressOp.packets, if_pos hroom, List.append_nil]
    · obtain ⟨f, heq⟩ := rmnetMapEgressHandler_eq v4Csum port p.muxId p.tx expand env (hf ▸ hagg) (hf ▸ hv4)
        (by omega) p.not_exempt (hf ▸ hroom)
      rw [hf] at heq
      have hhdr : (egressHeaders dataFormat p.muxId p.tx).length ≤ 8 := by
        have := additionalHeaderLen_le dataFormat
        rw [egressHeaders_length _ _ hv4, mapHeaderSize]
        omega
      have hcoh := framed_coherent p.coherent f (show p.tx.skb.len + (egressHeaders dataFormat p.muxId p.tx).length
        < 4294967296 by omega)
      have hbytes := framed_bytes p.tx (egressHeaders dataFormat p.muxId p.tx) f
      cases hres : rmnetMapTxAggregate (p.tx.framed (egressHeaders dataFormat p.muxId p.tx) f).skb env 2 0 port with
      | error e =>
        rw [hres] at heq
        simp only [egressStep, heq, Except.map] at hstep
        cases hstep
      | ok r =>
        obtain ⟨port₁, k⟩ := r
        rw [hres] at heq
        simp only [egressStep, heq, Except.map, Option.some.injEq] at hstep
        subst hstep
        refine h.ulStep (.txAggregate ⟨_, hcoh⟩ env) ?_ ?_ ?_ ?_
        · simp only [ulStep, hres]
        · rw [EgressOp.packets, if_neg hroom, UlOp.submitted, hbytes]
          rfl
        · exact rmnetMapTxAggregate_dataFormat hcoh env 2 _ _ _ _ hres
        · refine shortBuffers_aggregate hcoh ?_ env 2 _ _ _ _ h.short hres
          rw [hbytes, List.length_append, ← p.coherent.len_eq]
          omega
  | hrtimerFires =>
    cases hstep
    exact h.ulStep .hrtimerFires rfl rfl rfl (h.short.congr rfl rfl rfl h.short.params)
  | flushWork =>
    cases hstep
    exact h.ulStep .flushWork rfl rfl (rmnetMapFlushTxPacketWork_dataFormat port) (shortBuffers_flush h.short)
  | updateConfig size count features time pages =>
    cases hstep
    obtain ⟨h₁, h₂, h₃, -, h₅, h₆⟩ := rmnetMapUpdateUlAggConfig_frame size count features time pages port
    exact h.ulStep (.updateConfig size count features time pages) rfl rfl h₅
      (h.short.congr h₁ h₂ h₃ (by rw [h₆]; exact Nat.mod_lt _ (by omega)))

end

theorem egressInit_inv {dataFormat : ℕ} (hagg : dataFormat.testBit egressFormatAggregation = true) :
    EgressInv dataFormat [] (rmnetMapTxAggregateInit dataFormat) := by
  have hcount : (rmnetMapTxAggregateInit dataFormat).aggCount = 0 ∧
      (rmnetMapTxAggregateInit dataFormat).egressAggParams.aggCount = 20 := ⟨rfl, rfl⟩
  refine ⟨rfl, shortBuffers_none ?_ rfl (by omega) (by omega), [], init_inv dataFormat hagg, rfl⟩
  intro b hb
  cases hb

/-- Where every mux id has a device, the deliveries have the bytes of all packets. -/
theorem deliveries_bytes (endpoint : ℕ → Option NetDevice) (ps : List UlPacket)
    (hall : ∀ p ∈ ps, (endpoint p.muxId).isSome) :
    (ps.filterMap (UlPacket.delivery endpoint)).map Prod.snd = ps.map UlPacket.bytes := by
  induction ps with
  | nil => rfl
  | cons p ps ih =>
    obtain ⟨dev, hdev⟩ := Option.isSome_iff_exists.mp (hall p (by simp))
    have hp : p.delivery endpoint = some (dev, p.bytes) := by rw [UlPacket.delivery, hdev, Option.map_some]
    rw [List.filterMap_cons_some hp, List.map_cons, List.map_cons, ih fun q hq => hall q (List.mem_cons_of_mem _ hq)]

/-- Groups of images are images of groups. -/
theorem exists_groups {α β : Type*} (f : α → β) (groups : List (List β)) :
    ∀ xs : List α, groups.flatten = xs.map f →
      ∃ gs : List (List α), groups = gs.map (List.map f) ∧ gs.flatten = xs := by
  induction groups with
  | nil =>
    intro xs h
    have hnil : xs = [] := List.map_eq_nil_iff.mp h.symm
    exact ⟨[], rfl, hnil.symm⟩
  | cons g groups ih =>
    intro xs h
    rw [List.flatten_cons] at h
    obtain ⟨ys, zs, rfl, rfl, hzs⟩ := List.map_eq_append_iff.mp h.symm
    obtain ⟨gs, rfl, rfl⟩ := ih zs hzs.symm
    exact ⟨ys :: gs, rfl, rfl⟩

/-- The buffers of a port are the packets submitted, framed and grouped. -/
theorem EgressInv.buffers_eq {dataFormat : ℕ} {done : List EgressOp} {port : UlPort}
    (h : EgressInv dataFormat done port) :
    ∃ gs : List (List UlPacket), port.buffers = (gs.map fun g => (g.map (UlPacket.frame dataFormat)).flatten) ∧
      gs.flatten = done.flatMap (EgressOp.packets dataFormat) ∧
      ∀ g ∈ gs, ((g.map (UlPacket.frame dataFormat)).flatten).length < 2147483648 := by
  obtain ⟨uops, ⟨-, groups, pend, hl⟩, hframes⟩ := h.ledger
  have hpend : (port.aggSkb.map AggSkb.data).toList = (if pend = [] then [] else [pend]).map List.flatten := by
    have hbytes := hl.pending_eq
    cases hagg : port.aggSkb with
    | none => rw [if_pos (hl.null_iff.mp hagg)]; rfl
    | some agg =>
      rw [pendingBytes_some hagg] at hbytes
      rw [if_neg (fun hnil => by rw [hl.null_iff.mpr hnil] at hagg; cases hagg), Option.map_some, hbytes]
      rfl
  have hbuffers : port.buffers = (groups ++ if pend = [] then [] else [pend]).map List.flatten := by
    rw [UlPort.buffers, hl.sent_eq, hpend, List.map_append]
  have hshort : ∀ b ∈ port.buffers, b.length < 2147483648 := by
    intro b hb
    rcases List.mem_append.mp hb with hb | hb
    · exact h.short.sent b hb
    · obtain ⟨agg, hagg, rfl⟩ : ∃ agg, port.aggSkb = some agg ∧ agg.data = b := by simpa using hb
      rw [← pendingBytes_some hagg]
      exact h.short.pending_lt
  have hflat : (groups ++ if pend = [] then [] else [pend]).flatten
      = (done.flatMap (EgressOp.packets dataFormat)).map (UlPacket.frame dataFormat) := by
    rw [← hframes, ← hl.frames_eq, List.flatten_append]
    split
    · rename_i hnil
      rw [hnil, List.flatten_nil]
    · rw [List.flatten_singleton]
  obtain ⟨gs, hgs, hpackets⟩ := exists_groups _ _ _ hflat
  rw [hgs, List.map_map] at hbuffers
  refine ⟨gs, hbuffers, hpackets, fun g hg => hshort _ ?_⟩
  rw [hbuffers]
  exact List.mem_map_of_mem hg

/-- **Framing and parsing are inverse.**  In every run of the uplink without an overrun, on a port with
aggregation and no checksum headers or those of version 5, give the buffers, transmitted or still to be flushed,
one after another to the ingress path of a port with the matching format and allocations that succeed, whatever
memory holds behind them.  It terminates and delivers the packets submitted, in order, with their bytes, each to
the device of its mux id; where every mux id has a device, these are all the packets. -/
theorem egress_ingress_inverse (v4Csum : TxSkb → TxSkb) (skipExthdr : Bytes → ℕ → ℕ → SkipExthdr)
    (dlCsum : RmnetPort → NetDevice → SkBuff → ℕ → RmnetPort × Bool) (behind : ℕ → UInt8) (dataFormat : ℕ)
    (hagg : dataFormat.testBit egressFormatAggregation = true) (rx : RmnetPort) (halloc : rx.AllocOk)
    (hfmt : MatchingFormats dataFormat rx.dataFormat) (ops : List EgressOp) (port : UlPort)
    (hrun : runList (egressStep v4Csum) (rmnetMapTxAggregateInit dataFormat) ops = some port) :
    ∃ rx' out, receiveBuffers skipExthdr dlCsum behind rx port.buffers = some (rx', out) ∧
      out.map Delivery.content
        = (ops.flatMap (EgressOp.packets dataFormat)).filterMap (UlPacket.delivery rx.endpoint) ∧
      ((∀ p ∈ ops.flatMap (EgressOp.packets dataFormat), (rx.endpoint p.muxId).isSome) →
        out.map (fun d => d.2.bytes) = (ops.flatMap (EgressOp.packets dataFormat)).map UlPacket.bytes) := by
  have hinv := runList_invariant (I := EgressInv dataFormat) (egressStep_inv v4Csum hagg hfmt.egressV4) ops [] _ port
    (egressInit_inv hagg) hrun
  rw [List.nil_append] at hinv
  obtain ⟨gs, hbuffers, hpackets, hshort⟩ := hinv.buffers_eq
  obtain ⟨rx', out, hrx, hout⟩ := receiveBuffers_groups skipExthdr dlCsum behind gs rx hfmt halloc hshort
  rw [hpackets] at hout
  refine ⟨rx', out, by rw [hbuffers]; exact hrx, hout, ?_⟩
  intro hall
  have hbytes : out.map (fun d => d.2.bytes) = (out.map Delivery.content).map Prod.snd := by
    rw [List.map_map]
    rfl
  rw [hbytes, hout]
  exact deliveries_bytes rx.endpoint _ hall

/-- A packet of three bytes for mux id 1. -/
def samplePacket : UlPacket where
  tx := ⟨{ linear := [1, 2, 3], len := 3 }, .other, 16, 0⟩
  muxId := 1
  coherent := ⟨rfl, rfl, by decide⟩
  len_pos := by decide
  len_le := by decide
  mux_lt := by decide
  not_exempt := rfl

/-- The packet is sent twice, with checksum headers of version 5, and received at the device of mux id 1. -/
theorem egress_ingress_inverse_sample :
    ∃ port rx' out,
      runList (egressStep id) (rmnetMapTxAggregateInit (2 ^ 31 + 2 ^ 6))
        [.packet samplePacket true (fun _ => calmEnv), .packet samplePacket true (fun _ => calmEnv)] = some port ∧
      receiveBuffers (fun _ _ _ => ⟨none, 0, 0⟩) (fun port _ _ _ => (port, false)) (fun _ => 7)
        (rmnetDescriptorInit 32 (fun m => if m = 1 then some ⟨0, false, false⟩ else none) fun _ => true)
        port.buffers = some (rx', out) ∧
      out.map Delivery.content = [(⟨0, false, false⟩, [1, 2, 3]), (⟨0, false, false⟩, [1, 2, 3])] := by
  have hsent : (runList (egressStep id) (rmnetMapTxAggregateInit (2 ^ 31 + 2 ^ 6))
      [.packet samplePacket true (fun _ => calmEnv), .packet samplePacket true (fun _ => calmEnv)]).isSome := by
    decide +kernel
  obtain ⟨port, hrun⟩ := Option.isSome_iff_exists.mp hsent
  obtain ⟨rx', out, hrx, hout, -⟩ := egress_ingress_inverse id (fun _ _ _ => ⟨none, 0, 0⟩)
    (fun port _ _ _ => (port, false)) (fun _ => 7) (2 ^ 31 + 2 ^ 6) (by decide)
    (rmnetDescriptorInit 32 (fun m => if m = 1 then some ⟨0, false, false⟩ else none) fun _ => true) (fun _ => rfl)
    (.cksumv5 (by decide) (by decide) (by decide) (by decide)) _ port hrun
  exact ⟨port, rx', out, hrun, hrx, hout⟩

end Rmnet
