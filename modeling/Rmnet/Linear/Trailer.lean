import Rmnet.Errno
import Rmnet.Frag.ValidateCsum
import Rmnet.Linear.Padding

/-!
# The downlink checksum trailer

With `RMNET_FLAGS_INGRESS_MAP_CKSUMV4` the hardware leaves a trailer behind a data frame, with the checksum of
the whole IP packet.  `rmnet_map_checksum_downlink_packet` takes the IP header out of it, adds the pseudo-header
and compares what is left with the checksum field of the packet.

The code computes with 16-bit values of both byte orders.  It is modelled for a little-endian CPU as it stands:
a field is read as the machine reads it (`le16At`), `ntohs` is `swap16`, and `ip_fast_csum`, `ip_compute_csum` and
the pseudo-header functions sum up little-endian words.  `rmnet_perf` may call the function too; the model has the
call of the ingress handler, which has set `skb->protocol`.

* `csumValueFinal_iff` — the comparison in network order: when the value computed is the field.
* `dl_csum_trailer_exact` — which packets are accepted, on a device with `NETIF_F_RXCSUM`.
* `mapIngress_trailer` — the ingress handler marks exactly the accepted packets as verified.
-/

namespace Rmnet

open Word Field Checksum

/-! ### The code -/

/-- `struct rmnet_map_dl_csum_trailer`, the checksum as the machine reads it. -/
structure DlCsumTrailer where
  valid : Bool
  csumValue : ℕ
  deriving DecidableEq, Repr

def DlCsumTrailer.parse (b : Bytes) : DlCsumTrailer :=
  { valid := (byteAt b 1).testBit 0
    csumValue := le16At b 6 }

/-- `rmnet_set_skb_proto`. -/
def rmnetSetSkbProto (skb : SkBuff) : SkbProtocol :=
  let version := byteAt (memBytes (rmnetMapDataPtr skb) 0 1) 0 / 16
  if version = 4 then .ip else if version = 6 then .ipv6 else .other

/-- `rmnet_map_get_csum_field`: the offset of the field in the transport header, `none` for `NULL`. -/
def rmnetMapGetCsumField (protocol : ℕ) : Option ℕ :=
  if protocol = ipprotoTcp then some 16 else if protocol = ipprotoUdp then some 6 else none

/-- `ip_fast_csum` and `ip_compute_csum` of a little-endian machine. -/
def ipComputeCsumLe (hdr : Bytes) : ℕ := csumFold (wordSumLe hdr)

/-- `csum_tcpudp_magic` of a little-endian machine: the length and the protocol are added as `(len + proto) << 8`. -/
def csumTcpudpMagicLe (saddr daddr : Bytes) (len proto : ℕ) : ℕ :=
  csumFold (wordSumLe saddr + wordSumLe daddr + 256 * (len + proto))

/-- `csum_ipv6_magic` of a little-endian machine: it adds `htonl` of the length and of the protocol. -/
def csumIpv6MagicLe (saddr daddr : Bytes) (len proto : ℕ) : ℕ :=
  csumFold (wordSumLe saddr + wordSumLe daddr + wordSumLe (be32 len) + wordSumLe (be32 proto))

/-- `csum_value_final`, from `csum_temp` and the checksum field: the special cases of the value 0. -/
def csumValueFinal (protocol csumField csumTemp : ℕ) : ℕ :=
  if csumTemp = 0 then
    if protocol = ipprotoUdp then 65535
    else if protocol = ipprotoTcp ∧ csumField = 65535 then 65535
    else 0
  else csumTemp

/-- The end of both trailer functions: the pseudo-header sum is added to the sum of the IP payload, the checksum
field taken out, and the complement compared with the field. -/
def compareCsumField (port : RmnetPort) (dev : NetDevice) (protocol ipPayloadCsum pseudoCsum csumField : ℕ) :
    RmnetPort × ℤ :=
  let pseudoCsum := csum16Add ipPayloadCsum (swap16 pseudoCsum)
  let csumTemp := 65535 - csum16Sub pseudoCsum (swap16 csumField)
  if csumValueFinal protocol csumField csumTemp = swap16 csumField then (port.bump (some dev) .csumOk 1, 0)
  else (port.bump (some dev) .csumValidationFailed 1, -einval)

/-- `rmnet_map_ipv4_dl_csum_trailer`. -/
def rmnetMapIpv4DlCsumTrailer (port : RmnetPort) (dev : NetDevice) (skb : SkBuff) (csumTrailer : DlCsumTrailer) :
    RmnetPort × ℤ :=
  let ip4h := memBytes (rmnetMapDataPtr skb)
  let ihl := byteAt (ip4h 0 1) 0 % 16
  let fragOff := be16At (ip4h 6 2) 0
  let protocol := byteAt (ip4h 9 1) 0
  if fragOff.testBit 13 ∨ 0 < fragOff % 8192 then (port.bump (some dev) .csumFragmentedPkt 1, -eopnotsupp)
  else
    match rmnetMapGetCsumField protocol with
    | none => (port.bump (some dev) .csumErrInvalidTransport 1, -eprotonosupport)
    | some check =>
        let csumField := le16At (ip4h (ihl * 4 + check) 2) 0
        if csumField = 0 ∧ protocol = ipprotoUdp then (port.bump (some dev) .csumSkipped 1, 0)
        else
          let csumValue := 65535 - swap16 csumTrailer.csumValue
          let hdrCsum := 65535 - ipComputeCsumLe (ip4h 0 (ihl * 4))
          let ipPayloadCsum := csum16Sub csumValue hdrCsum
          let pseudoCsum := 65535 - csumTcpudpMagicLe (ip4h 12 4) (ip4h 16 4)
            (sub32 (be16At (ip4h 2 2) 0) (ihl * 4)) protocol
          compareCsumField port dev protocol ipPayloadCsum pseudoCsum csumField

/-- `rmnet_map_ipv6_dl_csum_trailer`. -/
def rmnetMapIpv6DlCsumTrailer (port : RmnetPort) (dev : NetDevice) (skb : SkBuff) (csumTrailer : DlCsumTrailer) :
    RmnetPort × ℤ :=
  let ip6h := memBytes (rmnetMapDataPtr skb)
  let nexthdr := byteAt (ip6h 6 1) 0
  match rmnetMapGetCsumField nexthdr with
  | none => (port.bump (some dev) .csumErrInvalidTransport 1, -eprotonosupport)
  | some check =>
      let csumField := le16At (ip6h (40 + check) 2) 0
      let csumValue := 65535 - swap16 csumTrailer.csumValue
      let ip6HdrCsum := 65535 - swap16 (ipComputeCsumLe (ip6h 0 40))
      let ip6PayloadCsum := csum16Sub csumValue ip6HdrCsum
      let length := if nexthdr = ipprotoUdp then be16At (ip6h 44 2) 0 else be16At (ip6h 4 2) 0
      let pseudoCsum := 65535 - csumIpv6MagicLe (ip6h 8 16) (ip6h 24 16) length nexthdr
      compareCsumField port dev nexthdr ip6PayloadCsum pseudoCsum csumField

/-- `rmnet_map_checksum_downlink_packet`, with `CONFIG_IPV6`. -/
def rmnetMapChecksumDownlinkPacket (port : RmnetPort) (dev : NetDevice) (skb : SkBuff) (protocol : SkbProtocol)
    (len : ℕ) : RmnetPort × ℤ :=
  if !dev.rxcsum then (port.bump (some dev) .csumSw 1, -eopnotsupp)
  else
    let csumTrailer := DlCsumTrailer.parse (memBytes (rmnetMapDataPtr skb) len dlCsumTrailerSize)
    if !csumTrailer.valid then (port.bump (some dev) .csumValidUnset 1, -einval)
    else
      match protocol with
      | .ip => rmnetMapIpv4DlCsumTrailer port dev skb csumTrailer
      | .ipv6 => rmnetMapIpv6DlCsumTrailer port dev skb csumTrailer
      | .other => (port.bump (some dev) .csumErrInvalidIpVersion 1, -eprotonosupport)

/-! ### The comparison -/

/-- The value computed, in network order: the field, up to a multiple of 65535, when the sums cancel. -/
theorem csumTemp_mod {payload pseudo field : ℕ} (hpay : payload ≤ 65535) (hps : pseudo ≤ 65535)
    (hf : field ≤ 65535) :
    (65535 - csum16Sub (csum16Add payload pseudo) field + (payload + pseudo)) % 65535 = field % 65535 := by
  have h₁ := csum16Add_mod payload pseudo
  have hle := csum16Add_le hpay hps
  have h₂ := csum16Add_mod (csum16Add payload pseudo) (65535 - field)
  have hle₂ := csum16Add_le hle (show 65535 - field ≤ 65535 by omega)
  rw [csum16Sub]
  omega

/-- When they do cancel, it is the field, or 0 for the field 65535. -/
theorem csumTemp_cancel {payload pseudo field : ℕ} (hpay : payload ≤ 65535) (hps : pseudo ≤ 65535) (hpos : 0 < pseudo)
    (hf : field ≤ 65535) (hsum : (payload + pseudo) % 65535 = 0) :
    65535 - csum16Sub (csum16Add payload pseudo) field = if field = 65535 then 0 else field := by
  have hall : csum16Add payload pseudo = 65535 := by
    rw [csum16Add]
    split
    · omega
    · omega
  rw [hall, csum16Sub, csum16Add]
  split
  · rw [if_pos (by omega)]
    omega
  · rw [if_neg (by omega)]
    omega

/-- **The comparison.**  The value computed is the field exactly when the sums cancel, but for a zero field of
UDP. -/
theorem csumValueFinal_iff {protocol payload pseudo field : ℕ}
    (hproto : protocol = ipprotoTcp ∨ protocol = ipprotoUdp) (hpay : payload ≤ 65535) (hps : pseudo ≤ 65535)
    (hpos : 0 < pseudo) (hf : field ≤ 65535) {native : ℕ} (hnative : native = 65535 ↔ field = 65535) :
    csumValueFinal protocol native (65535 - csum16Sub (csum16Add payload pseudo) field) = field ↔
      (payload + pseudo) % 65535 = 0 ∧ ¬ (protocol = ipprotoUdp ∧ field = 0) := by
  have hmod := csumTemp_mod hpay hps hf
  by_cases hsum : (payload + pseudo) % 65535 = 0
  · rw [csumTemp_cancel hpay hps hpos hf hsum, csumValueFinal]
    have hne : ipprotoTcp ≠ ipprotoUdp := by decide
    by_cases hones : field = 65535
    · rw [if_pos hones, if_pos rfl]
      rcases hproto with hp | hp
      · rw [if_neg (by rw [hp]; exact hne), if_pos ⟨hp, hnative.mpr hones⟩]
        exact ⟨fun _ => ⟨hsum, fun h => by omega⟩, fun _ => hones.symm⟩
      · rw [if_pos hp]
        exact ⟨fun _ => ⟨hsum, fun h => by omega⟩, fun _ => hones.symm⟩
    · rw [if_neg hones]
      by_cases hzero : field = 0
      · rw [if_pos hzero]
        rcases hproto with hp | hp
        · rw [if_neg (by rw [hp]; exact hne), if_neg (fun h => hones (hnative.mp h.2))]
          exact ⟨fun _ => ⟨hsum, fun h => hne (hp.symm.trans h.1)⟩, fun _ => hzero.symm⟩
        · rw [if_pos hp]
          exact ⟨fun h => absurd h.symm hones, fun h => absurd ⟨hp, hzero⟩ h.2⟩
      · rw [if_neg hzero]
        exact ⟨fun _ => ⟨hsum, fun h => hzero h.2⟩, fun _ => rfl⟩
  · generalize 65535 - csum16Sub (csum16Add payload pseudo) field = temp at hmod ⊢
    have hfinal : csumValueFinal protocol native temp % 65535 = temp % 65535 := by
      unfold csumValueFinal
      split
      · rename_i hz
        rw [hz]
        split
        · rfl
        · split
          · rfl
          · rfl
      · rfl
    refine ⟨fun h => ?_, fun h => absurd h.1 hsum⟩
    rw [h] at hfinal
    omega

theorem compareCsumField_eq (port : RmnetPort) (dev : NetDevice) (protocol payload pseudo field : ℕ) :
    (compareCsumField port dev protocol payload pseudo field).2
      = if csumValueFinal protocol field (65535 - csum16Sub (csum16Add payload (swap16 pseudo)) (swap16 field))
          = swap16 field then 0 else -einval := by
  rw [compareCsumField]
  exact apply_ite Prod.snd _ _ _

/-! ### Packets with a trailer -/

/-- A buffer that holds a packet at its data pointer and, `len` bytes behind it, a trailer marked valid. -/
structure TrailerFrame (skb : SkBuff) (ip : Bytes) (len value : ℕ) : Prop where
  packet : ∀ i < ip.length, rmnetMapDataPtr skb i = ip.getD i 0
  valid : (byteAt (memBytes (rmnetMapDataPtr skb) len dlCsumTrailerSize) 1).testBit 0 = true
  csum_value : be16At (memBytes (rmnetMapDataPtr skb) len dlCsumTrailerSize) 6 = value

/-- The Internet checksum of a byte string, in either representation of zero. -/
def IsInternetChecksum (value : ℕ) (b : Bytes) : Prop := (wordSum b + value) % 65535 = 0

/-- A whole unfragmented IPv4 packet with a valid header checksum, carrying TCP or UDP. -/
structure Ipv4Packet (ip : Bytes) : Prop where
  version : byteAt ip 0 / 16 = 4
  ihl : 20 ≤ byteAt ip 0 % 16 * 4
  tot_len : be16At ip 2 = ip.length
  unfragmented : (be16At ip 6).testBit 13 = false ∧ be16At ip 6 % 8192 = 0
  header : csumFold (wordSum (ip.take (byteAt ip 0 % 16 * 4))) = 0
  proto : byteAt ip 9 = ipprotoTcp ∨ byteAt ip 9 = ipprotoUdp
  transport : byteAt ip 0 % 16 * 4 + checkOffset (byteAt ip 9) + 2 ≤ ip.length

/-- A whole IPv6 packet with no extension headers, carrying TCP or UDP. -/
structure Ipv6Packet (ip : Bytes) : Prop where
  version : byteAt ip 0 / 16 = 6
  payload_len : 40 + be16At ip 4 = ip.length
  proto : byteAt ip 6 = ipprotoTcp ∨ byteAt ip 6 = ipprotoUdp
  transport : 40 + checkOffset (byteAt ip 6) + 2 ≤ ip.length

/-- The length in the pseudo-header of an IPv6 packet: that of the UDP header, or the payload length. -/
def ipv6DatagramLen (ip : Bytes) : ℕ := if byteAt ip 6 = ipprotoUdp then be16At ip 44 else be16At ip 4

/-- The ones'-complement sum of a transport part and its pseudo-header is zero. -/
def SumVerifies (ipProto ipLen len transProto : ℕ) (ip : Bytes) : Prop :=
  (wordSum (ip.drop ipLen) + pseudoWords ipProto ip len transProto) % 65535 = 0

/-- The answer there should be: 0 for a packet that verifies and for no other.  A zero checksum field of UDP is
accepted with IPv4 and refused with IPv6. -/
def TrailerAnswer (ipProto transProto field : ℕ) (verifies : Prop) (rc : ℤ) : Prop :=
  if transProto = ipprotoUdp ∧ field = 0 then rc = if ipProto = 4 then 0 else -einval else (rc = 0 ↔ verifies)

theorem rmnetMapGetCsumField_eq {protocol : ℕ} (h : protocol = ipprotoTcp ∨ protocol = ipprotoUdp) :
    rmnetMapGetCsumField protocol = some (checkOffset protocol) := by
  rcases h with rfl | rfl
  · rfl
  · rfl

section

variable {skb : SkBuff} {ip : Bytes} {len value : ℕ}

theorem TrailerFrame.read (h : TrailerFrame skb ip len value) {off n : ℕ} (hfit : off + n ≤ ip.length) :
    memBytes (rmnetMapDataPtr skb) off n = (ip.drop off).take n := by
  rw [← range_map_getD hfit, memBytes]
  apply List.map_congr_left
  intro i hi
  have hlt := List.mem_range.mp hi
  exact h.packet _ (by omega)

theorem TrailerFrame.byte (h : TrailerFrame skb ip len value) {off : ℕ} (hfit : off + 1 ≤ ip.length) :
    byteAt (memBytes (rmnetMapDataPtr skb) off 1) 0 = byteAt ip off := by
  rw [h.read hfit, byteAt_take (by omega), byteAt_drop, Nat.add_zero]

theorem TrailerFrame.be16 (h : TrailerFrame skb ip len value) {off : ℕ} (hfit : off + 2 ≤ ip.length) :
    be16At (memBytes (rmnetMapDataPtr skb) off 2) 0 = be16At ip off := by
  rw [h.read hfit, be16At_take (by omega), be16At_drop, Nat.add_zero]

theorem TrailerFrame.le16 (h : TrailerFrame skb ip len value) {off : ℕ} (hfit : off + 2 ≤ ip.length) :
    le16At (memBytes (rmnetMapDataPtr skb) off 2) 0 = le16At ip off := by
  rw [h.read hfit, le16At_take (by omega), le16At_drop, Nat.add_zero]

/-- `csum_value` of the code: the sum of the packet, up to multiples of 65535. -/
theorem TrailerFrame.csumValue_mod (h : TrailerFrame skb ip len value) (hvalue : IsInternetChecksum value ip) :
    65535 - swap16 (DlCsumTrailer.parse (memBytes (rmnetMapDataPtr skb) len dlCsumTrailerSize)).csumValue ≤ 65535 ∧
      (65535 - swap16 (DlCsumTrailer.parse (memBytes (rmnetMapDataPtr skb) len dlCsumTrailerSize)).csumValue)
        % 65535 = wordSum ip % 65535 := by
  have hlt := be16At_lt (memBytes (rmnetMapDataPtr skb) len dlCsumTrailerSize) 6
  rw [DlCsumTrailer.parse, swap16_le16At]
  rw [h.csum_value] at hlt ⊢
  unfold IsInternetChecksum at hvalue
  omega

/-- The two checksum fields, as the machine reads them and in network order. -/
theorem field_iff (ip : Bytes) (off : ℕ) :
    (le16At ip off = 0 ↔ be16At ip off = 0) ∧ (le16At ip off = 65535 ↔ be16At ip off = 65535) ∧
      swap16 (le16At ip off) = be16At ip off := by
  have hle := le16At_le ip off
  rw [← swap16_le16At]
  exact ⟨(swap16_eq_zero hle).symm, (swap16_eq_ones hle).symm, rfl⟩

/-- **The verdict** on the field at an offset: 0 when the payload and the pseudo-header cancel, and -22 otherwise or
for a zero field of UDP. -/
theorem compareCsumField_answer (port : RmnetPort) (dev : NetDevice) (ip : Bytes) (off : ℕ)
    {protocol payload pseudo words : ℕ} (hproto : protocol = ipprotoTcp ∨ protocol = ipprotoUdp)
    (hpay : payload ≤ 65535) (hpos : 0 < words) (hpseudo : swap16 pseudo = fold words) :
    (compareCsumField port dev protocol payload pseudo (le16At ip off)).2
      = if (payload + words) % 65535 = 0 ∧ ¬ (protocol = ipprotoUdp ∧ be16At ip off = 0) then 0 else -einval := by
  obtain ⟨-, hones, hswap⟩ := field_iff ip off
  have hfield := be16At_lt ip off
  have hiff := csumValueFinal_iff hproto hpay (fold_le words) (fold_pos hpos) (Nat.le_of_lt_succ hfield) hones
  have hsum : (payload + fold words) % 65535 = 0 ↔ (payload + words) % 65535 = 0 := by
    have hmod := fold_mod words
    omega
  rw [hsum] at hiff
  rw [compareCsumField_eq, hpseudo, hswap]
  simp only [hiff]

/-- The words of the pseudo-header are not all zero. -/
theorem pseudoWords_pos (ipProto : ℕ) {transProto : ℕ} (hdr : Bytes) (n : ℕ)
    (h : transProto = ipprotoTcp ∨ transProto = ipprotoUdp) : 0 < pseudoWords ipProto hdr n transProto := by
  rw [pseudoWords]
  rcases h with rfl | rfl
  · exact Nat.lt_add_left _ (by decide)
  · exact Nat.lt_add_left _ (by decide)

theorem pseudo_v4 (saddr daddr : Bytes) (n proto : ℕ) :
    swap16 (65535 - csumTcpudpMagicLe saddr daddr n proto) = fold (wordSum saddr + wordSum daddr + n + proto) := by
  have haddrs := (wordSumLe_swapped saddr).add (wordSumLe_swapped daddr)
  rw [Nat.add_assoc _ n proto]
  exact swap16_fold (haddrs.add (.mul (n + proto)))

theorem pseudo_v6 (saddr daddr : Bytes) {n proto : ℕ} (hn : n < 65536) (hproto : proto < 65536) :
    swap16 (65535 - csumIpv6MagicLe saddr daddr n proto) = fold (wordSum saddr + wordSum daddr + n + proto) := by
  have haddrs := (wordSumLe_swapped saddr).add (wordSumLe_swapped daddr)
  have hlen := wordSumLe_swapped (be32 n)
  have hnext := wordSumLe_swapped (be32 proto)
  rw [wordSum_be32 hn] at hlen
  rw [wordSum_be32 hproto] at hnext
  exact swap16_fold ((haddrs.add hlen).add hnext)

theorem verdict_zero {p : Prop} [Decidable p] : (if p then (0 : ℤ) else -einval) = 0 ↔ p := by
  split
  · exact ⟨fun _ => by assumption, fun _ => rfl⟩
  · exact ⟨fun h => absurd h (by decide), fun h => absurd h (by assumption)⟩

/-- **IPv4.**  The header, which sums up to zero, drops out. -/
theorem ipv4_trailer_answer (port : RmnetPort) (dev : NetDevice) (h : TrailerFrame skb ip len value)
    (hvalue : IsInternetChecksum value ip) (hip : Ipv4Packet ip) :
    TrailerAnswer 4 (byteAt ip 9) (be16At ip (byteAt ip 0 % 16 * 4 + checkOffset (byteAt ip 9)))
      (SumVerifies 4 (byteAt ip 0 % 16 * 4) (be16At ip 2 - byteAt ip 0 % 16 * 4) (byteAt ip 9) ip)
      (rmnetMapIpv4DlCsumTrailer port dev skb
        (DlCsumTrailer.parse (memBytes (rmnetMapDataPtr skb) len dlCsumTrailerSize))).2 := by
  have hfits := hip.transport
  have h20 := hip.ihl
  have hpacket := be16At_lt ip 2
  have htot := hip.tot_len
  obtain ⟨hvle, hvmod⟩ := h.csumValue_mod hvalue
  obtain ⟨hmf, hfrag⟩ := hip.unfragmented
  rw [rmnetMapIpv4DlCsumTrailer]
  simp only [h.byte (show 0 + 1 ≤ ip.length by omega), h.be16 (show 6 + 2 ≤ ip.length by omega),
    h.byte (show 9 + 1 ≤ ip.length by omega)]
  generalize hihl : byteAt ip 0 % 16 * 4 = ihl at hfits h20 ⊢
  rw [if_neg (by rw [hmf, hfrag]; decide), rmnetMapGetCsumField_eq hip.proto]
  simp only
  rw [h.le16 hfits]
  obtain ⟨hzero, -, -⟩ := field_iff ip (ihl + checkOffset (byteAt ip 9))
  rw [TrailerAnswer]
  by_cases hskip : byteAt ip 9 = ipprotoUdp ∧ be16At ip (ihl + checkOffset (byteAt ip 9)) = 0
  · rw [if_pos hskip, if_pos ⟨hzero.mpr hskip.2, hskip.1⟩, if_pos rfl]
  · rw [if_neg hskip, if_neg fun hz => hskip ⟨hz.2, hzero.mp hz.1⟩, h.read (show 0 + ihl ≤ ip.length by omega),
      h.read (show 12 + 4 ≤ ip.length by omega), h.read (show 16 + 4 ≤ ip.length by omega),
      h.be16 (show 2 + 2 ≤ ip.length by omega), sub32_of_le (by omega) (by omega)]
    generalize 65535 - swap16 (DlCsumTrailer.parse (memBytes (rmnetMapDataPtr skb) len dlCsumTrailerSize)).csumValue
      = csumValue at hvle hvmod ⊢
    -- the complement of a valid header checksum is all ones
    have hhdr : csum16Sub csumValue (65535 - ipComputeCsumLe ((ip.drop 0).take ihl)) = csumValue := by
      have hvalid := hip.header
      rw [hihl] at hvalid
      rw [ipComputeCsumLe, List.drop_zero, csumFold_swap (wordSumLe_swapped _), hvalid]
      show csum16Add csumValue 0 = csumValue
      rw [csum16Add, if_pos (by omega), Nat.add_zero]
    have hsplit : wordSum ip = wordSum (ip.take ihl) + wordSum (ip.drop ihl) := by
      have heven : (ip.take ihl).length % 2 = 0 := by
        rw [List.length_take, Nat.min_eq_left (by omega)]
        omega
      rw [← wordSum_append heven, List.take_append_drop]
    have hhdrZero : wordSum (ip.take ihl) % 65535 = 0 := by
      have hvalid := hip.header
      rw [hihl] at hvalid
      have hle := fold_le (wordSum (ip.take ihl))
      have hmod := fold_mod (wordSum (ip.take ihl))
      unfold csumFold at hvalid
      omega
    have hwords := compareCsumField_answer port dev ip (ihl + checkOffset (byteAt ip 9)) hip.proto hvle
      (pseudoWords_pos 4 ip (be16At ip 2 - ihl) hip.proto) (pseudo_v4 _ _ _ _)
    rw [hhdr, hwords, verdict_zero, SumVerifies]
    have hcancel : (csumValue + pseudoWords 4 ip (be16At ip 2 - ihl) (byteAt ip 9)) % 65535 = 0
        ↔ (wordSum (ip.drop ihl) + pseudoWords 4 ip (be16At ip 2 - ihl) (byteAt ip 9)) % 65535 = 0 := by
      omega
    rw [hcancel]
    exact and_iff_left hskip

/-- **IPv6.**  The header is taken out of the sum of the packet. -/
theorem ipv6_trailer_answer (port : RmnetPort) (dev : NetDevice) (h : TrailerFrame skb ip len value)
    (hvalue : IsInternetChecksum value ip) (hip : Ipv6Packet ip) :
    TrailerAnswer 6 (byteAt ip 6) (be16At ip (40 + checkOffset (byteAt ip 6)))
      (SumVerifies 6 40 (ipv6DatagramLen ip) (byteAt ip 6) ip)
      (rmnetMapIpv6DlCsumTrailer port dev skb
        (DlCsumTrailer.parse (memBytes (rmnetMapDataPtr skb) len dlCsumTrailerSize))).2 := by
  have hfits := hip.transport
  obtain ⟨hvle, hvmod⟩ := h.csumValue_mod hvalue
  rw [rmnetMapIpv6DlCsumTrailer]
  simp only [h.byte (show 6 + 1 ≤ ip.length by omega)]
  rw [rmnetMapGetCsumField_eq hip.proto]
  simp only [h.le16 hfits, h.read (show 0 + 40 ≤ ip.length by omega), h.read (show 8 + 16 ≤ ip.length by omega),
    h.read (show 24 + 16 ≤ ip.length by omega), h.be16 (show 4 + 2 ≤ ip.length by omega)]
  generalize 65535 - swap16 (DlCsumTrailer.parse (memBytes (rmnetMapDataPtr skb) len dlCsumTrailerSize)).csumValue
    = csumValue at hvle hvmod ⊢
  -- the header checksum, swapped to network order
  have hhdr : swap16 (ipComputeCsumLe ((ip.drop 0).take 40)) = csumFold (wordSum (ip.take 40)) := by
    rw [ipComputeCsumLe, List.drop_zero, csumFold_swap (wordSumLe_swapped _),
      swap16_swap16 (csumFold_le _)]
  have hsplit : wordSum ip = wordSum (ip.take 40) + wordSum (ip.drop 40) := by
    have heven : (ip.take 40).length % 2 = 0 := by
      rw [List.length_take, Nat.min_eq_left (by omega)]
    rw [← wordSum_append heven, List.take_append_drop]
  have hpayLe : csum16Sub csumValue (65535 - csumFold (wordSum (ip.take 40))) ≤ 65535 :=
    csum16Add_le hvle (Nat.sub_le _ _)
  have hpayMod : csum16Sub csumValue (65535 - csumFold (wordSum (ip.take 40))) % 65535
      = wordSum (ip.drop 40) % 65535 := by
    have hcancel := add_csumFold_mod (wordSum (ip.take 40))
    have hle := csumFold_le (wordSum (ip.take 40))
    rw [csum16Sub, csum16Add_mod]
    omega
  have hlength : (if byteAt ip 6 = ipprotoUdp then be16At (memBytes (rmnetMapDataPtr skb) 44 2) 0 else be16At ip 4)
      = ipv6DatagramLen ip := by
    rw [ipv6DatagramLen]
    split
    · rename_i hudp
      rw [hudp] at hfits
      exact h.be16 (Nat.le_trans (by decide) hfits)
    · rfl
  have hlen : ipv6DatagramLen ip < 65536 := by
    rw [ipv6DatagramLen]
    split
    · exact be16At_lt ip 44
    · exact be16At_lt ip 4
  have hwords := compareCsumField_answer port dev ip (40 + checkOffset (byteAt ip 6)) hip.proto hpayLe
    (pseudoWords_pos 6 ip (ipv6DatagramLen ip) hip.proto)
    (pseudo_v6 _ _ hlen (Nat.lt_trans (byteAt_lt ip 6) (by decide)))
  rw [hhdr, hlength, hwords, TrailerAnswer]
  by_cases hskip : byteAt ip 6 = ipprotoUdp ∧ be16At ip (40 + checkOffset (byteAt ip 6)) = 0
  · rw [if_pos hskip, if_neg fun hboth => hboth.2 hskip, if_neg (by decide)]
  · have hcancel : (csum16Sub csumValue (65535 - csumFold (wordSum (ip.take 40)))
          + pseudoWords 6 ip (ipv6DatagramLen ip) (byteAt ip 6)) % 65535 = 0
        ↔ (wordSum (ip.drop 40) + pseudoWords 6 ip (ipv6DatagramLen ip) (byteAt ip 6)) % 65535 = 0 := by
      omega
    rw [if_neg hskip, verdict_zero, SumVerifies, hcancel]
    exact and_iff_left hskip

end

/-! ### The checksum of a received packet -/

/-- The trailer is checked exactly: the answer to IPv4 and IPv6 packets is the one there should be. -/
def TrailerExact (ip : Bytes) (rc : ℤ) : Prop :=
  (Ipv4Packet ip →
    TrailerAnswer 4 (byteAt ip 9) (be16At ip (byteAt ip 0 % 16 * 4 + checkOffset (byteAt ip 9)))
      (SumVerifies 4 (byteAt ip 0 % 16 * 4) (be16At ip 2 - byteAt ip 0 % 16 * 4) (byteAt ip 9) ip) rc) ∧
    (Ipv6Packet ip →
      TrailerAnswer 6 (byteAt ip 6) (be16At ip (40 + checkOffset (byteAt ip 6)))
        (SumVerifies 6 40 (ipv6DatagramLen ip) (byteAt ip 6) ip) rc)

/-- **The trailer is checked exactly** on a device with `NETIF_F_RXCSUM`; without it the check is refused. -/
theorem dl_csum_trailer_exact (port : RmnetPort) (dev : NetDevice) {skb : SkBuff} {ip : Bytes} {len value : ℕ}
    (h : TrailerFrame skb ip len value) (hvalue : IsInternetChecksum value ip) :
    (dev.rxcsum = true →
      TrailerExact ip (rmnetMapChecksumDownlinkPacket port dev skb (rmnetSetSkbProto skb) len).2) ∧
      (dev.rxcsum = false →
        (rmnetMapChecksumDownlinkPacket port dev skb (rmnetSetSkbProto skb) len).2 = -eopnotsupp) := by
  constructor
  · intro hrx
    have hvalid : (DlCsumTrailer.parse (memBytes (rmnetMapDataPtr skb) len dlCsumTrailerSize)).valid = true := h.valid
    rw [rmnetMapChecksumDownlinkPacket, hrx]
    simp only [hvalid, Bool.not_true, Bool.false_eq_true, if_false]
    constructor
    · intro hip
      have hproto : rmnetSetSkbProto skb = .ip := by
        have hfits := hip.transport
        simp only [rmnetSetSkbProto, h.byte (show 0 + 1 ≤ ip.length by omega), hip.version, if_true]
      rw [hproto]
      exact ipv4_trailer_answer port dev h hvalue hip
    · intro hip
      have hproto : rmnetSetSkbProto skb = .ipv6 := by
        have hfits := hip.transport
        simp only [rmnetSetSkbProto, h.byte (show 0 + 1 ≤ ip.length by omega), hip.version]
        rfl
      rw [hproto]
      exact ipv6_trailer_answer port dev h hvalue hip
  · intro hrx
    rw [rmnetMapChecksumDownlinkPacket, hrx]
    rfl

/-- A UDP packet with its checksum, and the trailer behind it. -/
def trailerSkb : SkBuff := linearSkb (datagramIp ++ datagramUdp ++ [0, 1, 0, 0, 0, 30, 20, 30])

theorem trailerSkb_frame : TrailerFrame trailerSkb (datagramIp ++ datagramUdp) 30 5150 :=
  ⟨by decide, by decide, by decide⟩

theorem datagram_packet : Ipv4Packet (datagramIp ++ datagramUdp) :=
  ⟨by decide, by decide, by decide, by decide, by decide, by decide, by decide⟩

theorem dl_csum_trailer_datagram :
    TrailerExact (datagramIp ++ datagramUdp)
        (rmnetMapChecksumDownlinkPacket paddingPort ⟨0, false, true⟩ trailerSkb (rmnetSetSkbProto trailerSkb) 30).2 ∧
      (rmnetMapChecksumDownlinkPacket paddingPort ⟨0, false, true⟩ trailerSkb (rmnetSetSkbProto trailerSkb) 30).2 = 0 :=
  ⟨(dl_csum_trailer_exact paddingPort ⟨0, false, true⟩ trailerSkb_frame (by unfold IsInternetChecksum; decide)).1 rfl,
    by decide⟩

/-- A packet with the right checksum, on a device without `NETIF_F_RXCSUM`: it is not accepted. -/
theorem dl_csum_trailer_refused :
    TrailerFrame trailerSkb (datagramIp ++ datagramUdp) 30 5150 ∧
      IsInternetChecksum 5150 (datagramIp ++ datagramUdp) ∧
      ¬ TrailerExact (datagramIp ++ datagramUdp)
        (rmnetMapChecksumDownlinkPacket paddingPort ⟨0, false, false⟩ trailerSkb
          (rmnetSetSkbProto trailerSkb) 30).2 := by
  refine ⟨trailerSkb_frame, by unfold IsInternetChecksum; decide, ?_⟩
  intro h
  have hanswer := h.1 datagram_packet
  rw [TrailerAnswer, if_neg (by decide)] at hanswer
  have hverifies : SumVerifies 4 (byteAt (datagramIp ++ datagramUdp) 0 % 16 * 4)
      (be16At (datagramIp ++ datagramUdp) 2 - byteAt (datagramIp ++ datagramUdp) 0 % 16 * 4)
      (byteAt (datagramIp ++ datagramUdp) 9) (datagramIp ++ datagramUdp) := by
    unfold SumVerifies
    decide
  exact absurd (hanswer.mpr hverifies) (by decide)

/-! ### The mark of the ingress handler -/

/-- `rmnet_map_checksum_downlink_packet` as the ingress handler uses it: the port, and whether it returned 0. -/
def ingressDlCsum (port : RmnetPort) (dev : NetDevice) (skb : SkBuff) (len : ℕ) : RmnetPort × Bool :=
  let (port, rc) := rmnetMapChecksumDownlinkPacket port dev skb (rmnetSetSkbProto skb) len
  (port, rc = 0)

theorem pskbTrim_ipSummed (skb : SkBuff) (n : ℕ) : (pskbTrim skb n).ipSummed = skb.ipSummed := by
  rw [pskbTrim]
  split
  · rfl
  · rfl

/-- **The ingress handler** delivers a frame as verified exactly when its trailer is accepted. -/
theorem mapIngress_trailer (skipExthdr : Bytes → ℕ → ℕ → SkipExthdr) {port : RmnetPort} {dev : NetDevice}
    {frame : Bytes} (hdata : DataFrame port dev frame) (hnext : (MapHeader.parse frame).nextHdr = false)
    (hfmt : ingressMapCksumv4 port.dataFormat = true) :
    ∃ skb, (rmnetMapIngressSkb skipExthdr ingressDlCsum port (linearSkb frame)).2 = [(dev, skb)] ∧
      (skb.ipSummed = .checksumUnnecessary ↔
        (rmnetMapChecksumDownlinkPacket port dev (linearSkb (frame.drop mapHeaderSize))
          (rmnetSetSkbProto (linearSkb (frame.drop mapHeaderSize)))
          (u16 ((MapHeader.parse frame).unpadded + (MapHeader.parse frame).padLen))).2 = 0) := by
  have hsize : mapHeaderSize ≤ frame.length := by
    have hcomplete := hdata.complete
    rw [MapHeader.headersLen, hnext, if_neg Bool.false_ne_true] at hcomplete
    omega
  rw [rmnetMapIngressSkb]
  simp only [mapHeaderOf_linear hsize, pskbPull_linear hsize, hdata.cd, hdata.endpoint, hdata.nextHdrFrame_eq, hnext,
    hfmt, Bool.false_eq_true, if_false, if_true, if_neg (Nat.not_le.mpr hdata.mux_lt), ingressDlCsum]
  refine ⟨_, rfl, ?_⟩
  rw [pskbTrim_ipSummed]
  split
  · rename_i hok
    exact ⟨fun _ => of_decide_eq_true hok, fun _ => rfl⟩
  · rename_i hok
    have hnone : (linearSkb (frame.drop mapHeaderSize)).ipSummed = .checksumNone := rfl
    rw [hnone]
    exact ⟨fun h => absurd h (by decide), fun h => absurd (decide_eq_true h) hok⟩

end Rmnet
