import Rmnet.Errno
import Rmnet.Uplink.Conservation

/-!
# The uplink frame

`rmnet_map_egress_handler` puts the headers of QMAP in front of a packet and hands it to the aggregation.
The headers are pushed from the inside out: the checksum header first, then the QMAP header, whose length
field does not count the checksum header.  The checksum header of version 5 is there for checksum offload and
for priorities; the bit `next_hdr` announces it for checksum offload only.

`v4Csum` stands for `rmnet_map_v4_checksum_uplink_packet`, which only a format with checksum headers of version
4 reaches.  The counters of the device are left out.

* `egressFrame_bytes`, `egressFrame_coherent` — the frame that the handler builds, in bytes.
-/

namespace Rmnet

open Word Field

/-! ### Data -/

/-- `RMNET_FLAGS_EGRESS_MAP_CKSUMV4`. -/
def egressMapCksumv4 (dataFormat : ℕ) : Bool := dataFormat.testBit 3

/-- `RMNET_FLAGS_EGRESS_MAP_CKSUMV5`. -/
def egressMapCksumv5 (dataFormat : ℕ) : Bool := dataFormat.testBit 6

/-- `RMNET_EGRESS_FORMAT_PRIORITY`. -/
def egressPriority (dataFormat : ℕ) : Bool := dataFormat.testBit egressFormatPriority

/-- `sizeof(struct rmnet_map_ul_csum_header)`. -/
def ulCsumHeaderSize : ℕ := 4

/-- A buffer from the network stack, with the room around its linear part (`skb_headroom`,
`skb_tailroom`). -/
structure TxSkb where
  skb : SkBuff
  protocol : SkbProtocol
  headroom : ℕ
  tailroom : ℕ

/-- `skb_push` of some bytes.  The checksum start stays where it is in the packet. -/
def TxSkb.push (t : TxSkb) (hdr : Bytes) : TxSkb :=
  { t with
    skb := { t.skb with
      linear := hdr ++ t.skb.linear
      len := t.skb.len + hdr.length
      csumStart := t.skb.csumStart + hdr.length }
    headroom := t.headroom - hdr.length }

/-- `skb_put` of `n` zero bytes. -/
def TxSkb.put (t : TxSkb) (n : ℕ) : TxSkb :=
  { t with
    skb := { t.skb with linear := t.skb.linear ++ List.replicate n 0, len := t.skb.len + n }
    tailroom := t.tailroom - n }

/-! ### The headers -/

/-- The packet in a buffer has a transport checksum that `rmnet_map_get_csum_field` finds. -/
def TxSkb.hasCsumField (t : TxSkb) : Bool :=
  let transport := fun proto => proto = ipprotoTcp || proto = ipprotoUdp
  match t.protocol with
  | .ip => transport (byteAt t.skb.linear 9)
  | .ipv6 => transport (byteAt t.skb.linear 6)
  | .other => false

/-- The checksum header of version 5, for priority and checksum offload as asked. -/
def v5UlHeader (priority csumRequired : Bool) : Bytes :=
  [UInt8.ofNat (headerTypeCsumOffload * 2),
    UInt8.ofNat ((if priority then 32 else 0) + if csumRequired then 128 else 0), 0, 0]

/-- The hardware is asked for the checksum. -/
def TxSkb.csumRequired (t : TxSkb) (dataFormat : ℕ) : Bool :=
  egressMapCksumv5 dataFormat && t.skb.ipSummed = .checksumPartial && t.hasCsumField

/-- `hdr->priority`. -/
def TxSkb.prioritised (t : TxSkb) (dataFormat : ℕ) : Bool := egressPriority dataFormat && t.skb.priority ≠ 0

/-- `rmnet_map_v5_checksum_uplink_packet`. -/
def rmnetMapV5ChecksumUplinkPacket (dataFormat : ℕ) (t : TxSkb) : TxSkb :=
  let pushed := t.push (v5UlHeader (t.prioritised dataFormat) (t.csumRequired dataFormat))
  if t.csumRequired dataFormat then { pushed with skb := { pushed.skb with ipSummed := .checksumNone } }
  else pushed

/-- `struct rmnet_map_header` of a data frame, its mux id still zero. -/
def mapHeaderBytes (dataFormat padLen pktLen : ℕ) : Bytes :=
  [UInt8.ofNat (padLen % 64 + if egressMapCksumv5 dataFormat then 64 else 0), 0] ++ be16 pktLen

/-- `rmnet_map_add_map_header`: `none` is `NULL`, `pad` is `RMNET_MAP_ADD_PAD_BYTES`. -/
def rmnetMapAddMapHeader (dataFormat : ℕ) (t : TxSkb) (hdrlen : ℕ) (pad : Bool) : Option TxSkb :=
  let mapDatalen := sub32 t.skb.len hdrlen
  if !pad then some (t.push (mapHeaderBytes dataFormat 0 mapDatalen))
  else
    let padding := (4 - mapDatalen % 4) % 4
    if padding ≠ 0 ∧ t.tailroom < padding then none
    else some ((t.put padding).push (mapHeaderBytes dataFormat padding (u32 (mapDatalen + padding))))

/-- `rmnet_map_tx_agg_skip`: ICMP is not aggregated. -/
def rmnetMapTxAggSkip (t : TxSkb) (offset : ℕ) : Bool :=
  let packet := fun i => byteAt t.skb.linear (offset + i)
  match t.protocol with
  | .ip => packet 9 = 1
  | .ipv6 => packet 6 = 58 || (packet 6 = 44 && packet 40 = 58)
  | .other => false

/-! ### The handler -/

/-- What the handler returns: `-ENOMEM`, 0 with a buffer for its caller to transmit, or `-EINPROGRESS`. -/
inductive EgressOutcome
  | enomem
  | transmit (skb : SkBuff)
  | inProgress

/-- `additional_header_len`. -/
def additionalHeaderLen (dataFormat : ℕ) : ℕ :=
  if egressMapCksumv4 dataFormat then ulCsumHeaderSize
  else if egressMapCksumv5 dataFormat || egressPriority dataFormat then v5CsumHeaderSize
  else 0

section

variable (v4Csum : TxSkb → TxSkb)

/-- `rmnet_map_checksum_uplink_packet`, for the type that the format asks for. -/
def rmnetMapChecksumUplinkPacket (dataFormat : ℕ) (t : TxSkb) : TxSkb :=
  if egressMapCksumv4 dataFormat then v4Csum t
  else if egressMapCksumv5 dataFormat || egressPriority dataFormat then rmnetMapV5ChecksumUplinkPacket dataFormat t
  else t

/-- The frame that `rmnet_map_egress_handler` makes of a packet: `none` is `NULL` from
`rmnet_map_add_map_header`. -/
def egressFrame (dataFormat muxId : ℕ) (t : TxSkb) : Option TxSkb :=
  (rmnetMapAddMapHeader dataFormat (rmnetMapChecksumUplinkPacket v4Csum dataFormat t)
    (additionalHeaderLen dataFormat) false).map fun t =>
      { t with skb := { t.skb with linear := overwrite t.skb.linear 1 [UInt8.ofNat muxId] } }

/-- `rmnet_map_egress_handler`; `expand` is the outcome of `pskb_expand_head`. -/
def rmnetMapEgressHandler (port : UlPort) (muxId : ℕ) (t : TxSkb) (expand : Bool) (env : ℕ → TxEnv) :
    Except Stop (UlPort × EgressOutcome) :=
  let requiredHeadroom := mapHeaderSize + additionalHeaderLen port.dataFormat
  if t.headroom < requiredHeadroom ∧ expand = false then .ok (port, .enomem)
  else
    let t := if t.headroom < requiredHeadroom then { t with headroom := t.headroom + requiredHeadroom } else t
    match egressFrame v4Csum port.dataFormat muxId t with
    | none => .ok (port, .enomem)
    | some t =>
        if port.dataFormat.testBit egressFormatAggregation then
          if rmnetMapTxAggSkip t requiredHeadroom then .ok (port, .transmit t.skb)
          else
            match rmnetMapTxAggregate t.skb env 2 0 port with
            | .error e => .error e
            | .ok (port, _) => .ok (port, .inProgress)
        else .ok (port, .transmit t.skb)

/-! ### The frame in bytes -/

@[simp] theorem v5UlHeader_length (priority csumRequired : Bool) : (v5UlHeader priority csumRequired).length = 4 :=
  rfl

/-- The checksum header of a frame, without version 4. -/
def ulCsumHeader (dataFormat : ℕ) (t : TxSkb) : Bytes :=
  if egressMapCksumv5 dataFormat || egressPriority dataFormat
  then v5UlHeader (t.prioritised dataFormat) (t.csumRequired dataFormat) else []

/-- The headers of a frame, without version 4. -/
def egressHeaders (dataFormat muxId : ℕ) (t : TxSkb) : Bytes :=
  [UInt8.ofNat (if egressMapCksumv5 dataFormat then 64 else 0), UInt8.ofNat muxId] ++ be16 t.skb.len ++
    ulCsumHeader dataFormat t

theorem ulCsumHeader_length {dataFormat : ℕ} (t : TxSkb) (hv4 : egressMapCksumv4 dataFormat = false) :
    (ulCsumHeader dataFormat t).length = additionalHeaderLen dataFormat := by
  unfold ulCsumHeader additionalHeaderLen
  rw [hv4]
  simp only [Bool.false_eq_true, if_false]
  split
  · rfl
  · rfl

theorem egressHeaders_length {dataFormat : ℕ} (muxId : ℕ) (t : TxSkb)
    (hv4 : egressMapCksumv4 dataFormat = false) :
    (egressHeaders dataFormat muxId t).length = mapHeaderSize + additionalHeaderLen dataFormat := by
  rw [egressHeaders, List.length_append, ulCsumHeader_length t hv4]
  rfl

theorem additionalHeaderLen_le (dataFormat : ℕ) : additionalHeaderLen dataFormat ≤ 4 := by
  unfold additionalHeaderLen ulCsumHeaderSize v5CsumHeaderSize
  split
  · omega
  · split <;> omega

/-- What the framing changes of a buffer, beside its data. -/
structure FrameFields where
  ipSummed : IpSummed
  csumStart : ℕ
  headroom : ℕ

/-- A buffer with headers in front of its linear part. -/
def TxSkb.framed (t : TxSkb) (hdr : Bytes) (f : FrameFields) : TxSkb :=
  { t with
    skb := { t.skb with
      linear := hdr ++ t.skb.linear
      len := t.skb.len + hdr.length
      ipSummed := f.ipSummed
      csumStart := f.csumStart }
    headroom := f.headroom }

/-- The checksum header is pushed in front of the packet. -/
theorem checksumUplinkPacket_eq (dataFormat : ℕ) (t : TxSkb) (hv4 : egressMapCksumv4 dataFormat = false) :
    ∃ f, rmnetMapChecksumUplinkPacket v4Csum dataFormat t = t.framed (ulCsumHeader dataFormat t) f := by
  unfold rmnetMapChecksumUplinkPacket ulCsumHeader
  rw [hv4]
  simp only [Bool.false_eq_true, if_false]
  split
  · unfold rmnetMapV5ChecksumUplinkPacket
    refine ⟨⟨if t.csumRequired dataFormat then .checksumNone else t.skb.ipSummed, t.skb.csumStart + 4,
      t.headroom - 4⟩, ?_⟩
    cases t.csumRequired dataFormat with
    | true => rfl
    | false => rfl
  · exact ⟨⟨t.skb.ipSummed, t.skb.csumStart, t.headroom⟩, rfl⟩

/-- The mux id goes into the second byte of the QMAP header. -/
theorem mapHeaderBytes_mux (dataFormat pktLen muxId : ℕ) (rest : Bytes) :
    overwrite (mapHeaderBytes dataFormat 0 pktLen ++ rest) 1 [UInt8.ofNat muxId]
      = [UInt8.ofNat (if egressMapCksumv5 dataFormat then 64 else 0), UInt8.ofNat muxId] ++ be16 pktLen ++ rest := by
  simp [mapHeaderBytes, overwrite]

/-- **The frame.**  Without checksum headers of version 4, the handler makes of every packet a frame that
starts with the headers and goes on with the packet. -/
theorem egressFrame_eq (dataFormat muxId : ℕ) (t : TxSkb) (hv4 : egressMapCksumv4 dataFormat = false)
    (hlen : t.skb.len < 4294967280) :
    ∃ f, egressFrame v4Csum dataFormat muxId t = some (t.framed (egressHeaders dataFormat muxId t) f) := by
  obtain ⟨f, heq⟩ := checksumUplinkPacket_eq v4Csum dataFormat t hv4
  have hsmall := additionalHeaderLen_le dataFormat
  have hdata : sub32 (t.skb.len + (ulCsumHeader dataFormat t).length) (additionalHeaderLen dataFormat)
      = t.skb.len := by
    rw [ulCsumHeader_length t hv4, sub32_of_le (by omega) (by omega)]
    omega
  refine ⟨⟨f.ipSummed, f.csumStart + 4, f.headroom - 4⟩, ?_⟩
  unfold egressFrame rmnetMapAddMapHeader
  rw [heq]
  simp only [Bool.not_false, if_true, Option.map_some, TxSkb.push, TxSkb.framed, hdata, mapHeaderBytes_mux,
    egressHeaders, List.append_assoc, List.length_append]
  have hfour : (mapHeaderBytes dataFormat 0 t.skb.len).length = 4 := rfl
  congr 3
  simp only [hfour, List.length_cons, List.length_nil, be16_length]
  omega

/-- The QMAP header of a frame, as it is read: the length is that of the packet, and only checksum offload is
announced. -/
theorem parse_egressHeaders (dataFormat muxId : ℕ) (t : TxSkb) (hlen : t.skb.len ≤ 65535) (rest : Bytes) :
    MapHeader.parse (egressHeaders dataFormat muxId t ++ rest)
      = { padLen := 0
          nextHdr := egressMapCksumv5 dataFormat
          cdBit := false
          muxId := muxId % 256
          pktLen := t.skb.len } := by
  have hcons : egressHeaders dataFormat muxId t ++ rest
      = UInt8.ofNat (if egressMapCksumv5 dataFormat then 64 else 0) :: UInt8.ofNat muxId ::
        UInt8.ofNat (t.skb.len / 256) :: UInt8.ofNat t.skb.len :: (ulCsumHeader dataFormat t ++ rest) := by
    simp [egressHeaders, be16]
  have hword : t.skb.len / 256 % 256 * 256 + t.skb.len % 256 = t.skb.len := by omega
  rw [hcons]
  cases egressMapCksumv5 dataFormat with
  | true =>
    simp [MapHeader.parse, byteAt, be16At, hword]
    decide
  | false => simp [MapHeader.parse, byteAt, be16At, hword]

theorem framed_bytes (t : TxSkb) (hdr : Bytes) (f : FrameFields) :
    (t.framed hdr f).skb.bytes = hdr ++ t.skb.bytes := by
  simp [TxSkb.framed, SkBuff.bytes]

theorem framed_coherent {t : TxSkb} (h : t.skb.Coherent) {hdr : Bytes} (f : FrameFields)
    (hlt : t.skb.len + hdr.length < 4294967296) : (t.framed hdr f).skb.Coherent := by
  refine ⟨?_, ?_, hlt⟩
  · rw [framed_bytes, List.length_append, ← h.len_eq]
    exact Nat.add_comm _ _
  · show t.skb.dataLen = t.skb.len + hdr.length - (hdr ++ t.skb.linear).length
    rw [h.dataLen_eq, List.length_append]
    omega

/-- Behind the headers, the packet is looked at as before. -/
theorem framed_aggSkip (t : TxSkb) (hdr : Bytes) (f : FrameFields) :
    rmnetMapTxAggSkip (t.framed hdr f) hdr.length = rmnetMapTxAggSkip t 0 := by
  simp only [rmnetMapTxAggSkip, TxSkb.framed, byteAt_append_right, Nat.zero_add]

/-- **The handler**, where there is memory for the headers: the frame goes to the aggregation, or it is transmitted
where the port does not aggregate or the packet is exempt. -/
theorem rmnetMapEgressHandler_frame (port : UlPort) (muxId : ℕ) (t : TxSkb) (expand : Bool) (env : ℕ → TxEnv)
    (hv4 : egressMapCksumv4 port.dataFormat = false) (hlen : t.skb.len < 4294967280)
    (hroom : ¬ (t.headroom < mapHeaderSize + additionalHeaderLen port.dataFormat ∧ expand = false)) :
    ∃ f, rmnetMapEgressHandler v4Csum port muxId t expand env
      = if port.dataFormat.testBit egressFormatAggregation && !rmnetMapTxAggSkip t 0 then
          (rmnetMapTxAggregate (t.framed (egressHeaders port.dataFormat muxId t) f).skb env 2 0 port).map
            fun r => (r.1, .inProgress)
        else .ok (port, .transmit (t.framed (egressHeaders port.dataFormat muxId t) f).skb) := by
  unfold rmnetMapEgressHandler
  simp only
  rw [if_neg hroom]
  generalize hroomy : (if t.headroom < mapHeaderSize + additionalHeaderLen port.dataFormat then
    { t with headroom := t.headroom + (mapHeaderSize + additionalHeaderLen port.dataFormat) } else t) = t'
  have hframed : ∃ f, egressFrame v4Csum port.dataFormat muxId t'
      = some (t.framed (egressHeaders port.dataFormat muxId t) f) := by
    subst hroomy
    split
    · exact egressFrame_eq v4Csum port.dataFormat muxId { t with headroom := _ } hv4 hlen
    · exact egressFrame_eq v4Csum port.dataFormat muxId t hv4 hlen
  obtain ⟨f, hf⟩ := hframed
  refine ⟨f, ?_⟩
  rw [hf]
  simp only
  rw [← egressHeaders_length muxId t hv4, framed_aggSkip]
  cases port.dataFormat.testBit egressFormatAggregation with
  | false => rfl
  | true =>
    cases rmnetMapTxAggSkip t 0 with
    | true => rfl
    | false =>
      simp only [Bool.true_and, Bool.not_false, if_true, Bool.false_eq_true, if_false]
      cases rmnetMapTxAggregate (t.framed (egressHeaders port.dataFormat muxId t) f).skb env 2 0 port with
      | error e => rfl
      | ok r => rfl

/-- The handler, for a packet that is not exempt, on a port with aggregation. -/
theorem rmnetMapEgressHandler_eq (port : UlPort) (muxId : ℕ) (t : TxSkb) (expand : Bool) (env : ℕ → TxEnv)
    (hagg : port.dataFormat.testBit egressFormatAggregation = true)
    (hv4 : egressMapCksumv4 port.dataFormat = false) (hlen : t.skb.len < 4294967280)
    (hskip : rmnetMapTxAggSkip t 0 = false)
    (hroom : ¬ (t.headroom < mapHeaderSize + additionalHeaderLen port.dataFormat ∧ expand = false)) :
    ∃ f, rmnetMapEgressHandler v4Csum port muxId t expand env
      = (rmnetMapTxAggregate (t.framed (egressHeaders port.dataFormat muxId t) f).skb env 2 0 port).map
          fun r => (r.1, .inProgress) := by
  obtain ⟨f, hf⟩ := rmnetMapEgressHandler_frame v4Csum port muxId t expand env hv4 hlen hroom
  rw [hagg, hskip] at hf
  exact ⟨f, hf⟩

/-- A packet without the memory for its headers is given back. -/
theorem rmnetMapEgressHandler_enomem (port : UlPort) (muxId : ℕ) (t : TxSkb) (expand : Bool) (env : ℕ → TxEnv)
    (hroom : t.headroom < mapHeaderSize + additionalHeaderLen port.dataFormat ∧ expand = false) :
    rmnetMapEgressHandler v4Csum port muxId t expand env = .ok (port, .enomem) := by
  unfold rmnetMapEgressHandler
  simp only
  rw [if_pos hroom]

end

end Rmnet
