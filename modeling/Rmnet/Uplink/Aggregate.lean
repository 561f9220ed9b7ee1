import Rmnet.Skb
import Mathlib.Data.List.Basic
import Mathlib.Data.Int.Basic

/-!
# Uplink aggregation: the port's state and every `agg_lock` critical section

`rmnet_map_tx_aggregate`, `rmnet_map_flush_tx_packet_work`, `rmnet_map_tx_qmap_cmd` and
`rmnet_map_update_ul_agg_config` all follow one pattern: a critical section under `agg_lock`, then, with
the lock released, a cancelled timer and some transmissions.  The model keeps that seam.  A critical
section is a function of the port that also returns what is left to do after the unlock, as a list of
`Post` actions; running the actions at once gives the sequential semantics, interleaving them gives the
concurrent one.

* `rmnetMapLinearizeCopy` — the copy loop, with fuel for its `while`;
* `rmnetGetAggPages` — the page recycling cursor (a cursor on the list head is a value, `AggCursor.listHead`);
* `txAggregateLocked` — one pass of `rmnet_map_tx_aggregate` from the `new_packet` label to the unlock;
* `txAggregateLocked_cases` — what one pass can do, guards included; every later proof uses this.
-/

namespace Rmnet

open Word

/-! ### Time -/

/-- `struct timespec64`. -/
structure Timespec64 where
  tvSec : ℤ := 0
  tvNsec : ℤ := 0
  deriving DecidableEq, Repr

/-- `timespec64_sub`: the difference, with the nanoseconds normalised into `[0, 10^9)`. -/
def timespec64Sub (lhs rhs : Timespec64) : Timespec64 :=
  let nsec := lhs.tvNsec - rhs.tvNsec
  { tvSec := lhs.tvSec - rhs.tvSec + nsec / 1000000000
    tvNsec := nsec % 1000000000 }

/-- `rmnet_agg_time_limit`, in nanoseconds. -/
def rmnetAggTimeLimit : ℤ := 1000000

/-- `rmnet_agg_bypass_time`, in nanoseconds. -/
def rmnetAggBypassTime : ℤ := 10000000

/-! ### The port -/

/-- `EINPROGRESS`. -/
def eInProgress : ℤ := 115

/-- `PAGE_SIZE`, as it is assumed to be. -/
def pageSize : ℕ := 4096

/-- `SKB_DATA_ALIGN(sizeof(struct skb_shared_info))`.  The kernel's configuration decides it; the value assumed here is
that of 64-bit kernels with 17 fragments and cache lines of 64 bytes. -/
def skbSharedInfoSize : ℕ := 320

/-- The bit of `RMNET_EGRESS_FORMAT_AGGREGATION` in `data_format`. -/
def egressFormatAggregation : ℕ := 31

/-- The bit of `RMNET_EGRESS_FORMAT_PRIORITY` in `data_format`. -/
def egressFormatPriority : ℕ := 28

/-- The bit of `RMNET_PAGE_RECYCLE` in `agg_features`. -/
def rmnetPageRecycle : ℕ := 0

/-- `struct rmnet_egress_agg_params`. -/
structure RmnetEgressAggParams where
  aggSize : ℕ
  aggCount : ℕ
  aggFeatures : ℕ
  aggTime : ℕ
  deriving DecidableEq, Repr

/-- The aggregation buffer made by `build_skb`: linear, with the room left behind its tail. -/
structure AggSkb where
  data : Bytes
  tailroom : ℕ
  deriving DecidableEq, Repr

/-- What `agg_head` can point to: nothing, an entry of `agg_list`, or the list head taken for an entry. -/
inductive AggCursor
  | null
  | entry (page : ℕ)
  | listHead
  deriving DecidableEq, Repr

/-- The aggregation part of `struct rmnet_port`, its timer and work item, and what has been handed to
`dev_queue_xmit` so far. -/
structure UlPort where
  dataFormat : ℕ
  egressAggParams : RmnetEgressAggParams
  aggSkb : Option AggSkb
  aggState : ℤ
  aggCount : ℕ
  aggTime : Timespec64
  aggLast : Timespec64
  hrtimerArmed : Bool
  aggWqQueued : Bool
  aggSizeOrder : ℕ
  aggList : List ℕ
  aggHead : AggCursor
  ulAggReuse : ℕ
  ulAggAlloc : ℕ
  sent : List Bytes
  deriving DecidableEq, Repr

/-! ### Copying into the buffer -/

/-- Why a call does not come back: `skb_over_panic`, or a loop of the source that runs out of fuel. -/
inductive Stop
  | overrun
  | fuel
  deriving DecidableEq, Repr

/-- `skb_put_data`. -/
def skbPutData (dst : AggSkb) (buf : Bytes) : Except Stop AggSkb :=
  if buf.length ≤ dst.tailroom then
    .ok { data := dst.data ++ buf, tailroom := dst.tailroom - buf.length }
  else .error .overrun

/-- The `for` loop of `rmnet_map_linearize_copy` over one buffer's page fragments. -/
def linearizeFrags : AggSkb → ℕ → List SkbFrag → Except Stop (AggSkb × ℕ)
  | dst, target, [] => .ok (dst, target)
  | dst, target, f :: fs =>
      match skbPutData dst f.bytes with
      | .error e => .error e
      | .ok dst => linearizeFrags dst (sub32 target f.size) fs

/-- The `while (target)` loop: `cur` is the current buffer, `rest` what follows it on the chain.  On the
last buffer of the chain the source stays where it is. -/
def linearizeLoop : ℕ → AggSkb → ℕ → List SkbFrag → List (List SkbFrag) → Except Stop AggSkb
  | fuel, dst, target, cur, rest =>
      if target = 0 then .ok dst
      else
        match fuel with
        | 0 => .error .fuel
        | fuel + 1 =>
            match linearizeFrags dst target cur with
            | .error e => .error e
            | .ok (dst, target) =>
                match rest with
                | [] => linearizeLoop fuel dst target cur []
                | next :: rest => linearizeLoop fuel dst target next rest

/-- `rmnet_map_linearize_copy`. -/
def rmnetMapLinearizeCopy (dst : AggSkb) (src : SkBuff) : Except Stop AggSkb :=
  let linear := sub32 src.len src.dataLen
  match skbPutData dst (src.linear.take linear) with
  | .error e => .error e
  | .ok dst =>
      linearizeLoop (src.fragList.length + 1) dst (sub32 src.len linear) src.frags src.fragList

/-! ### Pages -/

/-- What the environment decides in one pass: clock readings, page reference counts, allocations. -/
structure TxEnv where
  /-- The reading stored to `agg_last`. -/
  now : Timespec64
  /-- The reading stored to `agg_time`. -/
  nowAgg : Timespec64
  /-- `page_ref_count` of the page inspected in iteration `i`. -/
  pageRefCount : ℕ → ℕ
  devAllocPages : Bool
  buildSkb : Bool

/-- `list_next_entry` from an entry of `agg_list`, or from the list head itself. -/
def listNextEntry (l : List ℕ) : AggCursor → AggCursor
  | .entry p =>
      match l.dropWhile (· ≠ p) with
      | _ :: q :: _ => .entry q
      | _ => .listHead
  | _ =>
      match l with
      | [] => .listHead
      | p :: _ => .entry p

/-- The `do … while (i <= 5)` loop of `rmnet_get_agg_pages`, `n` iterations left: the new cursor, the
page handed out, and the cursors whose page was inspected. -/
def aggPagesLoop (l : List ℕ) (refCount : ℕ → ℕ) :
    ℕ → ℕ → AggCursor → AggCursor × Option AggCursor × List AggCursor
  | 0, _, head => (head, none, [])
  | n + 1, i, head =>
      if head = .null then (head, none, [])
      else if refCount i = 1 then (listNextEntry l head, some head, [head])
      else
        let r := aggPagesLoop l refCount n (i + 1) (listNextEntry l head)
        (r.1, r.2.1, head :: r.2.2)

/-- `rmnet_get_agg_pages`: whether there is a page. -/
def rmnetGetAggPages (env : TxEnv) (port : UlPort) : UlPort × Bool :=
  let r := if port.egressAggParams.aggFeatures.testBit rmnetPageRecycle then
      aggPagesLoop port.aggList env.pageRefCount 6 0 port.aggHead
    else (port.aggHead, none, [])
  match r.2.1 with
  | some _ => ({ port with aggHead := r.1, ulAggReuse := port.ulAggReuse + 1 }, true)
  | none => ({ port with aggHead := r.1, ulAggAlloc := port.ulAggAlloc + 1 }, env.devAllocPages)

/-- `rmnet_map_build_skb`: a buffer of `PAGE_SIZE << agg_size_order` bytes, less the shared info that
`build_skb` keeps at its end. -/
def rmnetMapBuildSkb (env : TxEnv) (port : UlPort) : UlPort × Option AggSkb :=
  let (port, page) := rmnetGetAggPages env port
  if page && env.buildSkb then
    (port, some { data := [], tailroom := pageSize * 2 ^ port.aggSizeOrder - skbSharedInfoSize })
  else (port, none)

/-! ### The critical sections -/

/-- What a caller still has to do once it has released `agg_lock`. -/
inductive Post
  | hrtimerCancel
  | devQueueXmit (buf : Bytes)
  | newPacket
  deriving DecidableEq, Repr

/-- The reset of the aggregation state that every sender performs under the lock. -/
def resetAgg (port : UlPort) : UlPort :=
  { port with aggSkb := none, aggCount := 0, aggTime := {}, aggState := 0 }

/-- `rmnet_map_send_agg_skb`. -/
def rmnetMapSendAggSkb (port : UlPort) : UlPort × List Post :=
  match port.aggSkb with
  | none => (port, [])
  | some agg => (resetAgg port, [.hrtimerCancel, .devQueueXmit agg.data])

/-- The `schedule` label: arm the timer unless a flush is already in progress. -/
def schedule (port : UlPort) : UlPort :=
  if port.aggState ≠ -eInProgress then
    { port with aggState := -eInProgress, hrtimerArmed := true }
  else port

/-- The test of the sparse-traffic bypass: `size` is the `int` that `agg_size - skb->len` is stored to. -/
def txAggBypass (port : UlPort) (last : Timespec64) (skbLen : ℕ) : Bool :=
  let diff := timespec64Sub port.aggLast last
  let size := sub32 port.egressAggParams.aggSize skbLen
  0 < diff.tvSec || rmnetAggBypassTime < diff.tvNsec || size = 0 || 2147483648 ≤ size

/-- The test that the buffer has to be sent before this packet. -/
def txAggFull (port : UlPort) (agg : AggSkb) (skbLen : ℕ) : Bool :=
  let diff := timespec64Sub port.aggLast port.aggTime
  agg.tailroom < skbLen || port.egressAggParams.aggCount ≤ port.aggCount ||
    0 < diff.tvSec || rmnetAggTimeLimit < diff.tvNsec

/-- The branch of `rmnet_map_tx_aggregate` without a buffer: bypass, or open a new one. -/
def txAggOpen (skb : SkBuff) (env : TxEnv) (last : Timespec64) (port : UlPort) :
    Except Stop (UlPort × List Post) :=
  if txAggBypass port last skb.len then .ok (port, [.devQueueXmit skb.bytes])
  else
    match rmnetMapBuildSkb env port with
    | (port, none) =>
        .ok ({ port with aggSkb := none, aggCount := 0, aggTime := {} }, [.devQueueXmit skb.bytes])
    | (port, some agg) =>
        match rmnetMapLinearizeCopy agg skb with
        | .error e => .error e
        | .ok agg => .ok (schedule { port with aggSkb := some agg, aggCount := 1, aggTime := env.nowAgg }, [])

/-- One pass of `rmnet_map_tx_aggregate`, from `new_packet` to the unlock. -/
def txAggregateLocked (skb : SkBuff) (env : TxEnv) (port : UlPort) : Except Stop (UlPort × List Post) :=
  let last := port.aggLast
  let port := { port with aggLast := env.now }
  if port.dataFormat.testBit egressFormatPriority && skb.priority ≠ 0 then
    let (port, posts) := rmnetMapSendAggSkb port
    .ok (port, posts ++ [.devQueueXmit skb.bytes])
  else
    match port.aggSkb with
    | none => txAggOpen skb env last port
    | some agg =>
        if txAggFull port agg skb.len then
          let (port, posts) := rmnetMapSendAggSkb port
          .ok (port, posts ++ [.newPacket])
        else
          match rmnetMapLinearizeCopy agg skb with
          | .error e => .error e
          | .ok agg => .ok (schedule { port with aggSkb := some agg, aggCount := u8 (port.aggCount + 1) }, [])

/-- The critical section of `rmnet_map_flush_tx_packet_work`. -/
def flushTxPacketLocked (port : UlPort) : UlPort × List Post :=
  if port.aggState = -eInProgress then
    match port.aggSkb with
    | some agg => (resetAgg port, [.devQueueXmit agg.data])
    | none => ({ port with aggState := 0 }, [])
  else (port, [])

/-- The critical section of `rmnet_map_tx_qmap_cmd`, on the port of the command's device. -/
def txQmapCmdLocked (qmapSkb : Bytes) (port : UlPort) : UlPort × List Post :=
  if port.dataFormat.testBit egressFormatAggregation then
    match port.aggSkb with
    | some agg => (resetAgg port, [.hrtimerCancel, .devQueueXmit agg.data, .devQueueXmit qmapSkb])
    | none => (port, [.devQueueXmit qmapSkb])
  else (port, [.devQueueXmit qmapSkb])

/-- `get_order`: the least `n` with `size ≤ PAGE_SIZE << n`, for a `u16` size. -/
def getOrder (size : ℕ) : ℕ :=
  if size ≤ pageSize then 0
  else if size ≤ 2 * pageSize then 1
  else if size ≤ 4 * pageSize then 2
  else if size ≤ 8 * pageSize then 3
  else 4

/-- `rmnet_alloc_agg_pages`: the pages that could be allocated, of 512 attempts. -/
def rmnetAllocAggPages (pages : List ℕ) (port : UlPort) : UlPort :=
  let aggList := port.aggList ++ pages.take 512
  { port with
    aggList := aggList
    aggHead := match aggList with
      | [] => .null
      | p :: _ => .entry p }

/-- `rmnet_map_update_ul_agg_config`; `pages` are the pages the allocator hands out. -/
def rmnetMapUpdateUlAggConfig (size count features time : ℕ) (pages : List ℕ) (port : UlPort) : UlPort :=
  let port := { port with
    egressAggParams :=
      { aggSize := u16 size, aggCount := u8 count, aggFeatures := u8 features, aggTime := u32 time }
    aggList := []
    aggHead := .null }
  if u16 size < pageSize then port
  else
    let order := getOrder (u16 size)
    let size := sub16 (u16 (pageSize * 2 ^ order)) skbSharedInfoSize
    let port := { port with
      aggSizeOrder := order
      egressAggParams := { port.egressAggParams with aggSize := size } }
    if port.egressAggParams.aggFeatures = 1 then rmnetAllocAggPages pages port else port

/-- `rmnet_map_tx_aggregate_init` on a zeroed port of a given `data_format`. -/
def rmnetMapTxAggregateInit (dataFormat : ℕ) : UlPort :=
  rmnetMapUpdateUlAggConfig (pageSize - 1) 20 0 3000000 []
    { dataFormat := dataFormat, egressAggParams := ⟨0, 0, 0, 0⟩, aggSkb := none, aggState := 0,
      aggCount := 0, aggTime := {}, aggLast := {}, hrtimerArmed := false, aggWqQueued := false,
      aggSizeOrder := 0, aggList := [], aggHead := .null, ulAggReuse := 0, ulAggAlloc := 0, sent := [] }

/-! ### The copy loop -/

theorem skbPutData_eq (dst : AggSkb) (buf : Bytes) :
    skbPutData dst buf = if buf.length ≤ dst.tailroom then
      .ok { data := dst.data ++ buf, tailroom := dst.tailroom - buf.length } else .error .overrun := rfl

/-- The inner loop appends every fragment, or overruns. -/
theorem linearizeFrags_eq (fs : List SkbFrag) :
    ∀ (dst : AggSkb) (target : ℕ), fragsSize fs ≤ target → target < 4294967296 →
      linearizeFrags dst target fs = if fragsSize fs ≤ dst.tailroom then
        .ok ({ data := dst.data ++ fragsBytes fs, tailroom := dst.tailroom - fragsSize fs },
          target - fragsSize fs) else .error .overrun := by
  induction fs with
  | nil => intro dst target _ _; simp [linearizeFrags]
  | cons f fs ih =>
    intro dst target hle hlt
    rw [fragsSize_cons] at hle ⊢
    rw [linearizeFrags, skbPutData_eq, SkbFrag.bytes_length]
    by_cases hf : f.size ≤ dst.tailroom
    · rw [if_pos hf]
      show linearizeFrags _ (sub32 target f.size) fs = _
      rw [sub32_of_le (by omega) hlt, ih _ _ (by omega) (by omega)]
      by_cases hfs : f.size + fragsSize fs ≤ dst.tailroom
      · rw [if_pos hfs, if_pos (show fragsSize fs ≤ dst.tailroom - f.size by omega)]
        simp [Nat.sub_sub]
      · rw [if_neg hfs, if_neg (show ¬ fragsSize fs ≤ dst.tailroom - f.size by omega)]
    · rw [if_neg hf, if_neg (by omega)]

/-- The bytes of a chain of buffers without linear part. -/
def chainBytes (chain : List (List SkbFrag)) : Bytes := (chain.map fragsBytes).flatten

theorem chainBytes_cons (fs : List SkbFrag) (chain : List (List SkbFrag)) :
    chainBytes (fs :: chain) = fragsBytes fs ++ chainBytes chain := rfl

/-- The outer loop copies the whole chain when `target` counts it; the fuel of one step a buffer is
enough. -/
theorem linearizeLoop_eq (rest : List (List SkbFrag)) :
    ∀ (cur : List SkbFrag) (fuel : ℕ) (dst : AggSkb), rest.length < fuel →
      (chainBytes (cur :: rest)).length < 4294967296 →
      linearizeLoop fuel dst (chainBytes (cur :: rest)).length cur rest =
        if (chainBytes (cur :: rest)).length ≤ dst.tailroom then
          .ok { data := dst.data ++ chainBytes (cur :: rest),
                tailroom := dst.tailroom - (chainBytes (cur :: rest)).length }
        else .error .overrun := by
  induction rest with
  | nil =>
    intro cur fuel dst hfuel hlt
    obtain ⟨fuel, rfl⟩ : ∃ k, fuel = k + 1 := ⟨fuel - 1, by simp at hfuel; omega⟩
    have hlen : (chainBytes [cur]).length = fragsSize cur := by simp [chainBytes]
    rw [linearizeLoop]
    by_cases h0 : (chainBytes [cur]).length = 0
    · rw [if_pos h0, List.length_eq_zero_iff.mp h0]
      simp
    · rw [if_neg h0]
      simp only [hlen] at hlt ⊢
      rw [linearizeFrags_eq cur dst _ le_rfl hlt]
      by_cases hr : fragsSize cur ≤ dst.tailroom
      · simp only [if_pos hr, Nat.sub_self]
        unfold linearizeLoop
        simp [chainBytes]
      · simp only [if_neg hr]
  | cons next rest ih =>
    intro cur fuel dst hfuel hlt
    obtain ⟨fuel, rfl⟩ : ∃ k, fuel = k + 1 := ⟨fuel - 1, by simp at hfuel; omega⟩
    have hlen : (chainBytes (cur :: next :: rest)).length
        = fragsSize cur + (chainBytes (next :: rest)).length := by
      rw [chainBytes_cons, List.length_append, fragsBytes_length]
    rw [linearizeLoop]
    by_cases h0 : (chainBytes (cur :: next :: rest)).length = 0
    · rw [if_pos h0, List.length_eq_zero_iff.mp h0]
      simp
    · rw [if_neg h0]
      simp only [hlen] at hlt ⊢
      rw [linearizeFrags_eq cur dst _ (by omega) hlt]
      by_cases hc : fragsSize cur ≤ dst.tailroom
      · simp only [if_pos hc, Nat.add_sub_cancel_left]
        rw [ih next fuel _ (by simp at hfuel; omega) (by omega)]
        by_cases hr : fragsSize cur + (chainBytes (next :: rest)).length ≤ dst.tailroom
        · rw [if_pos hr, if_pos (by simp only; omega)]
          simp [chainBytes_cons cur, Nat.sub_sub]
        · rw [if_neg hr, if_neg (by simp only; omega)]
      · simp only [if_neg hc]
        rw [if_neg (by omega)]

/-- **The copy is exact.**  `rmnet_map_linearize_copy` of a coherent buffer terminates; it appends the
buffer's bytes if they fit and overruns otherwise. -/
theorem rmnetMapLinearizeCopy_eq (dst : AggSkb) (src : SkBuff) (h : src.Coherent) :
    rmnetMapLinearizeCopy dst src = if src.len ≤ dst.tailroom then
      .ok { data := dst.data ++ src.bytes, tailroom := dst.tailroom - src.len }
      else .error .overrun := by
  have hb : src.bytes = src.linear ++ chainBytes (src.frags :: src.fragList) := by
    simp [SkBuff.bytes, chainBytes]
  have hlen : src.len = src.linear.length + (chainBytes (src.frags :: src.fragList)).length := by
    rw [h.len_eq, hb, List.length_append]
  have hlt := h.len_lt
  have hlin : sub32 src.len src.dataLen = src.linear.length := by
    rw [h.dataLen_eq, sub32_of_le (by omega) hlt]
    omega
  unfold rmnetMapLinearizeCopy
  simp only [hlin, List.take_length, skbPutData_eq]
  by_cases hl : src.linear.length ≤ dst.tailroom
  · simp only [if_pos hl]
    rw [sub32_of_le (by omega) hlt,
      show src.len - src.linear.length = (chainBytes (src.frags :: src.fragList)).length by omega,
      linearizeLoop_eq _ _ _ _ (by omega) (by omega)]
    by_cases hr : src.len ≤ dst.tailroom
    · rw [if_pos hr, if_pos (by simp only; omega), hb, hlen]
      simp [Nat.sub_sub]
    · rw [if_neg hr, if_neg (by simp only; omega)]
  · simp only [if_neg hl]
    rw [if_neg (by omega)]

/-! ### What one critical section can do -/

/-- What no critical section of a sender touches: the format, the parameters, the transmissions so far
and the queued work. -/
structure SameConfig (port port' : UlPort) : Prop where
  dataFormat : port'.dataFormat = port.dataFormat
  params : port'.egressAggParams = port.egressAggParams
  sent : port'.sent = port.sent
  aggWqQueued : port'.aggWqQueued = port.aggWqQueued

/-- The buffer has been taken out and the state reset, the timer left as it was. -/
structure Emptied (port port' : UlPort) : Prop extends SameConfig port port' where
  aggSkb : port'.aggSkb = none
  aggCount : port'.aggCount = 0
  aggState : port'.aggState = 0
  hrtimerArmed : port'.hrtimerArmed = port.hrtimerArmed

/-- A flush is scheduled: the state says so, and the timer was armed unless it already said so. -/
structure Scheduled (port port' : UlPort) : Prop extends SameConfig port port' where
  aggState : port'.aggState = -eInProgress
  hrtimerArmed : port'.hrtimerArmed = (port.hrtimerArmed || port.aggState ≠ -eInProgress)

theorem resetAgg_emptied (port : UlPort) : Emptied port (resetAgg port) :=
  ⟨⟨rfl, rfl, rfl, rfl⟩, rfl, rfl, rfl, rfl⟩

theorem SameConfig.refl (port : UlPort) : SameConfig port port := ⟨rfl, rfl, rfl, rfl⟩

theorem SameConfig.trans {a b c : UlPort} (h : SameConfig a b) (h' : SameConfig b c) :
    SameConfig a c :=
  ⟨h'.dataFormat.trans h.dataFormat, h'.params.trans h.params, h'.sent.trans h.sent,
    h'.aggWqQueued.trans h.aggWqQueued⟩

theorem rmnetGetAggPages_frame (env : TxEnv) (port : UlPort) :
    ∃ head reuse alloc, (rmnetGetAggPages env port).1
      = { port with aggHead := head, ulAggReuse := reuse, ulAggAlloc := alloc } := by
  unfold rmnetGetAggPages
  simp only
  split
  · exact ⟨_, _, port.ulAggAlloc, rfl⟩
  · exact ⟨_, port.ulAggReuse, _, rfl⟩

/-- Building the buffer moves the page cursor and the statistics; a new buffer is empty. -/
theorem rmnetMapBuildSkb_frame (env : TxEnv) (port : UlPort) :
    (∃ head reuse alloc, (rmnetMapBuildSkb env port).1
      = { port with aggHead := head, ulAggReuse := reuse, ulAggAlloc := alloc }) ∧
    ∀ agg, (rmnetMapBuildSkb env port).2 = some agg → agg.data = [] := by
  have hf := rmnetGetAggPages_frame env port
  unfold rmnetMapBuildSkb
  generalize rmnetGetAggPages env port = r at hf ⊢
  obtain ⟨port', page⟩ := r
  simp only at hf ⊢
  split
  · refine ⟨hf, ?_⟩
    intro agg hagg
    simp only [Option.some.injEq] at hagg
    rw [← hagg]
  · exact ⟨hf, by simp⟩

theorem schedule_scheduled (port : UlPort) : Scheduled port (schedule port) := by
  unfold schedule
  by_cases h : port.aggState = -eInProgress
  · rw [if_neg (by simpa using h)]
    exact ⟨SameConfig.refl port, h, by simp [h]⟩
  · rw [if_pos h]
    exact ⟨⟨rfl, rfl, rfl, rfl⟩, rfl, by simp [h]⟩

theorem schedule_aggSkb (port : UlPort) : (schedule port).aggSkb = port.aggSkb := by
  unfold schedule
  split <;> rfl

theorem schedule_aggCount (port : UlPort) : (schedule port).aggCount = port.aggCount := by
  unfold schedule
  split <;> rfl

/-- What one pass of `rmnet_map_tx_aggregate` can do to the port, and what it leaves to do after the
unlock. -/
inductive TxPass (skb : SkBuff) (port port' : UlPort) : List Post → Prop
  /-- A priority packet, or a full, stale or overdue buffer: the buffer goes out first. -/
  | sendFirst (agg : AggSkb) (rest : List Post) :
      port.aggSkb = some agg → Emptied port port' →
      rest = [.devQueueXmit skb.bytes] ∨ rest = [.newPacket] →
      TxPass skb port port' (.hrtimerCancel :: .devQueueXmit agg.data :: rest)
  /-- No buffer and the packet goes out by itself: priority, sparse traffic, or no memory. -/
  | direct :
      port.aggSkb = none → SameConfig port port' → port'.aggSkb = none →
      (port'.aggCount = port.aggCount ∨ port'.aggCount = 0) → port'.aggState = port.aggState →
      port'.hrtimerArmed = port.hrtimerArmed →
      TxPass skb port port' [.devQueueXmit skb.bytes]
  /-- A new buffer with this packet in it. -/
  | opened (agg : AggSkb) :
      port.aggSkb = none → Scheduled port port' → port'.aggSkb = some agg → agg.data = skb.bytes →
      port'.aggCount = 1 → TxPass skb port port' []
  /-- The packet is appended to the buffer. -/
  | appended (agg agg' : AggSkb) :
      port.aggSkb = some agg → Scheduled port port' → port'.aggSkb = some agg' →
      agg'.data = agg.data ++ skb.bytes → port.aggCount < port.egressAggParams.aggCount →
      port'.aggCount = u8 (port.aggCount + 1) → TxPass skb port port' []

theorem rmnetMapLinearizeCopy_ok {dst agg : AggSkb} {src : SkBuff} (hc : src.Coherent)
    (h : rmnetMapLinearizeCopy dst src = .ok agg) : agg.data = dst.data ++ src.bytes := by
  rw [rmnetMapLinearizeCopy_eq dst src hc] at h
  split at h
  · cases h; rfl
  · cases h

theorem txAggOpen_cases {skb : SkBuff} {env : TxEnv} {last : Timespec64} {port port' : UlPort}
    {posts : List Post} (hc : skb.Coherent) (hnone : port.aggSkb = none)
    (h : txAggOpen skb env last port = .ok (port', posts)) : TxPass skb port port' posts := by
  unfold txAggOpen at h
  split at h
  · cases h
    exact .direct hnone (SameConfig.refl _) hnone (.inl rfl) rfl rfl
  · obtain ⟨⟨head, reuse, alloc, hport⟩, hempty⟩ := rmnetMapBuildSkb_frame env port
    generalize rmnetMapBuildSkb env port = r at h hport hempty
    obtain ⟨port₁, agg?⟩ := r
    simp only at hport hempty
    subst hport
    cases agg? with
    | none =>
      cases h
      exact .direct hnone ⟨rfl, rfl, rfl, rfl⟩ rfl (.inr rfl) rfl rfl
    | some agg =>
      simp only at h
      split at h
      · cases h
      · rename_i agg' hcopy
        cases h
        have hdata := rmnetMapLinearizeCopy_ok hc hcopy
        rw [hempty agg rfl, List.nil_append] at hdata
        have hs := schedule_scheduled { port with
          aggHead := head, ulAggReuse := reuse, ulAggAlloc := alloc,
          aggSkb := some agg', aggCount := 1, aggTime := env.nowAgg }
        exact .opened agg' hnone ⟨⟨hs.dataFormat, hs.params, hs.sent, hs.aggWqQueued⟩,
          hs.aggState, hs.hrtimerArmed⟩ (schedule_aggSkb _) hdata (schedule_aggCount _)

/-- **Inversion of one pass.**  Every pass that does not overrun its buffer is one of the four. -/
theorem txAggregateLocked_cases {skb : SkBuff} {env : TxEnv} {port port' : UlPort} {posts : List Post}
    (hc : skb.Coherent) (h : txAggregateLocked skb env port = .ok (port', posts)) :
    TxPass skb port port' posts := by
  unfold txAggregateLocked at h
  simp only at h
  split at h
  · -- priority: the buffer, if any, then the packet
    cases hagg : port.aggSkb with
    | none =>
      simp only [rmnetMapSendAggSkb, hagg] at h
      cases h
      exact .direct hagg ⟨rfl, rfl, rfl, rfl⟩ rfl (.inl rfl) rfl rfl
    | some agg =>
      simp only [rmnetMapSendAggSkb, hagg] at h
      cases h
      exact .sendFirst agg _ hagg ⟨⟨rfl, rfl, rfl, rfl⟩, rfl, rfl, rfl, rfl⟩ (.inl rfl)
  · cases hagg : port.aggSkb with
    | none =>
      simp only [hagg] at h
      -- the reading of the clock is the only difference between the two ports
      cases txAggOpen_cases hc rfl h with
      | sendFirst agg _ hs => cases hs
      | direct hn hsame hs hcnt hst ht =>
        exact .direct hagg ⟨hsame.dataFormat, hsame.params, hsame.sent, hsame.aggWqQueued⟩ hs hcnt hst ht
      | opened agg hn hsch hs hd hcnt =>
        exact .opened agg hagg ⟨⟨hsch.dataFormat, hsch.params, hsch.sent, hsch.aggWqQueued⟩,
          hsch.aggState, hsch.hrtimerArmed⟩ hs hd hcnt
      | appended agg agg' hs => cases hs
    | some agg =>
      simp only [hagg] at h
      split at h
      · simp only [rmnetMapSendAggSkb] at h
        cases h
        exact .sendFirst agg _ hagg ⟨⟨rfl, rfl, rfl, rfl⟩, rfl, rfl, rfl, rfl⟩ (.inr rfl)
      · rename_i hfull
        split at h
        · cases h
        · rename_i agg' hcopy
          cases h
          have hcnt : port.aggCount < port.egressAggParams.aggCount := by
            simp [txAggFull] at hfull
            omega
          have hs := schedule_scheduled { port with
            aggLast := env.now, aggSkb := some agg', aggCount := u8 (port.aggCount + 1) }
          exact .appended agg agg' hagg ⟨⟨hs.dataFormat, hs.params, hs.sent, hs.aggWqQueued⟩,
            hs.aggState, hs.hrtimerArmed⟩ (schedule_aggSkb _) (rmnetMapLinearizeCopy_ok hc hcopy) hcnt
            (schedule_aggCount _)

end Rmnet
