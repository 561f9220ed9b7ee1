import Mathlib.Data.List.FinRange
import Rmnet.Lib.Bucket
import Rmnet.Lib.Chained
import Rmnet.Lib.Word

/-!
# Bytes and rates of processes

`rmnet_genl.c` counts the bytes that each process sends in a hash table, and answers queries with the rate of every
process since it was last reported.  A query walks the table in order, drops the processes that have sent nothing
since, and stops when the answer is full.

`hashMin` stands for `hash_min`.  The spinlock makes every function one step.  A query also keeps a log of what it
computes for each entry written, with the divisor.  A division by zero gives zero here.

* `queryTable_walked` — a query reports the first active processes in the order of the table;
* `query_answer` — what it writes for them;
* `Walked.left`, `Walked.gone` — what it leaves in the table.
-/

namespace Rmnet

open Word Chained

/-! ### Data -/

/-- `RMNET_CORE_GENL_MAX_PIDS`. -/
def maxPids : ℕ := 32

/-- `RMNET_QUERY_PERIOD_SEC`, in milliseconds. -/
def queryPeriodMs : ℤ := 1000

/-- `struct rmnet_pid_node_s`, with the defaults of `kzalloc`. -/
structure RmnetPidNode where
  pid : ℤ
  timstampLastQuery : ℕ := 0
  txBytes : ℕ := 0
  txBytesLastQuery : ℕ := 0
  txBps : ℕ := 0
  schedBoostPeriodMs : ℕ := 0
  schedBoostRemainingMs : ℤ := 0
  schedBoostEnable : ℤ := 0
  deriving DecidableEq, Repr

/-- `rmnet_pid_ht`, of `2 ^ RMNET_PID_STATS_HT_SIZE` buckets. -/
abbrev PidTable := Fin 256 → List RmnetPidNode

/-- `struct rmnet_core_pid_bps_info`. -/
structure PidBpsInfo where
  txBps : ℕ := 0
  pid : ℕ := 0
  boostRemainingMs : ℕ := 0
  deriving DecidableEq, Repr

/-- An entry that nothing is written to. -/
def PidBpsInfo.cleared : PidBpsInfo := {}

/-- `struct rmnet_core_pid_bps_resp`; its caller sets `valid`. -/
structure PidBpsResp where
  list : List PidBpsInfo
  timestamp : ℕ
  listLen : ℕ
  deriving DecidableEq, Repr

/-- What a query computes for an entry that it writes. -/
structure PidReport where
  pid : ℤ
  byteDiff : ℕ
  divisor : ℕ
  deriving DecidableEq, Repr

/-! ### Counting -/

/-- The body of the search loop of `rmnet_update_pid_and_check_boost`, with `*boost_enable` and `*boost_period`. -/
def RmnetPidNode.charge (node : RmnetPidNode) (len : ℕ) : RmnetPidNode × ℤ × ℕ :=
  let node := { node with txBytes := u64 (node.txBytes + len) }
  if node.schedBoostEnable ≠ 0 then
    ({ node with schedBoostEnable := 0, schedBoostRemainingMs := int32 node.schedBoostPeriodMs },
      1, node.schedBoostPeriodMs)
  else (node, 0, 0)

/-- Counting bytes leaves the process, the count last reported and the time of that report. -/
theorem RmnetPidNode.charge_fields (node : RmnetPidNode) (len : ℕ) :
    (node.charge len).1.pid = node.pid ∧ (node.charge len).1.txBytesLastQuery = node.txBytesLastQuery ∧
      (node.charge len).1.timstampLastQuery = node.timstampLastQuery ∧
      (node.charge len).1.txBytes = u64 (node.txBytes + len) := by
  unfold RmnetPidNode.charge
  simp only
  split
  · exact ⟨rfl, rfl, rfl, rfl⟩
  · exact ⟨rfl, rfl, rfl, rfl⟩

section

variable (hashMin : ℤ → Fin 256)

/-- `rmnet_update_pid_and_check_boost`; `kzalloc` is the outcome of the allocation. -/
def rmnetUpdatePidAndCheckBoost (tab : PidTable) (pid : ℤ) (len : ℕ) (kzalloc : Bool) : PidTable × ℤ × ℕ :=
  let bkt := hashMin pid
  match (tab bkt).find? fun node => node.pid = pid with
  | some node =>
      (Function.update tab bkt (modifyKey RmnetPidNode.pid pid (fun node => (node.charge len).1) (tab bkt)),
        (node.charge len).2)
  | none =>
      if kzalloc then (Function.update tab bkt ({ pid := pid, txBytes := len } :: tab bkt), 0, 0)
      else (tab, 0, 0)

theorem updatePid_found {tab : PidTable} {pid : ℤ} {node : RmnetPidNode} (len : ℕ) (kzalloc : Bool)
    (hfind : ((tab (hashMin pid)).find? fun node => node.pid = pid) = some node) :
    (rmnetUpdatePidAndCheckBoost hashMin tab pid len kzalloc).1
      = Function.update tab (hashMin pid)
          (modifyKey RmnetPidNode.pid pid (fun node => (node.charge len).1) (tab (hashMin pid))) := by
  simp only [rmnetUpdatePidAndCheckBoost, hfind]

theorem updatePid_new {tab : PidTable} {pid : ℤ} (len : ℕ) (kzalloc : Bool)
    (hfind : ((tab (hashMin pid)).find? fun node => node.pid = pid) = none) :
    (rmnetUpdatePidAndCheckBoost hashMin tab pid len kzalloc).1
      = if kzalloc then Function.update tab (hashMin pid) ({ pid := pid, txBytes := len } :: tab (hashMin pid))
        else tab := by
  simp only [rmnetUpdatePidAndCheckBoost, hfind]
  split
  · rfl
  · rfl

/-- `rmnet_boost_for_pid`. -/
def rmnetBoostForPid (tab : PidTable) (pid boostEnable : ℤ) (boostPeriod : ℕ) : PidTable :=
  let bkt := hashMin pid
  Function.update tab bkt (modifyKey RmnetPidNode.pid pid
    (fun node => { node with schedBoostEnable := boostEnable, schedBoostPeriodMs := boostPeriod }) (tab bkt))

end

/-! ### Queries -/

/-- A process with bytes since it was last reported; the others are dropped. -/
def RmnetPidNode.active (node : RmnetPidNode) : Bool := node.txBytesLastQuery < node.txBytes

/-- `byte_diff`. -/
def RmnetPidNode.byteDiff (node : RmnetPidNode) : ℕ := sub64 node.txBytes node.txBytesLastQuery

/-- The divisor as `do_div` takes it: `time_diff_ns` in whole seconds, in a `u32`. -/
def RmnetPidNode.divisor (timestamp : ℕ) (node : RmnetPidNode) : ℕ :=
  u32 (sub64 timestamp node.timstampLastQuery / 1000000000)

/-- A node once it is reported. -/
def RmnetPidNode.reported (timestamp : ℕ) (node : RmnetPidNode) : RmnetPidNode :=
  { node with
    txBps := u64 (node.byteDiff * 8) / node.divisor timestamp
    schedBoostRemainingMs :=
      if queryPeriodMs ≤ node.schedBoostRemainingMs then node.schedBoostRemainingMs - queryPeriodMs else 0
    timstampLastQuery := timestamp
    txBytesLastQuery := node.txBytes }

/-- The entry written for a node. -/
def RmnetPidNode.info (timestamp : ℕ) (node : RmnetPidNode) : PidBpsInfo :=
  { txBps := (node.reported timestamp).txBps
    pid := toU32 node.pid
    boostRemainingMs := toU32 (node.reported timestamp).schedBoostRemainingMs }

/-- The log of a node. -/
def RmnetPidNode.report (timestamp : ℕ) (node : RmnetPidNode) : PidReport :=
  { pid := node.pid, byteDiff := node.byteDiff, divisor := node.divisor timestamp }

/-- What a query has written so far: `i`, the array and the log. -/
structure QueryAcc where
  i : ℕ
  list : List PidBpsInfo
  log : List PidReport

/-- An entry is written. -/
def QueryAcc.write (timestamp : ℕ) (acc : QueryAcc) (node : RmnetPidNode) : QueryAcc :=
  { i := acc.i + 1, list := acc.list.set acc.i (node.info timestamp), log := acc.log ++ [node.report timestamp] }

/-- The walk over one bucket.  When the answer is full, the rest of the bucket stays as it is. -/
def queryBucket (timestamp : ℕ) : List RmnetPidNode → QueryAcc → List RmnetPidNode × QueryAcc
  | [], acc => ([], acc)
  | node :: nodes, acc =>
      if maxPids ≤ acc.i then (node :: nodes, acc)
      else if node.txBytes ≤ node.txBytesLastQuery then queryBucket timestamp nodes acc
      else
        let (nodes, acc) := queryBucket timestamp nodes (acc.write timestamp node)
        (node.reported timestamp :: nodes, acc)

/-- `hash_for_each_safe`, over the buckets from some bucket on. -/
def queryTable (timestamp : ℕ) : List (Fin 256) → PidTable → QueryAcc → PidTable × QueryAcc
  | [], tab, acc => (tab, acc)
  | bkt :: bkts, tab, acc =>
      let (nodes, acc) := queryBucket timestamp (tab bkt) acc
      queryTable timestamp bkts (Function.update tab bkt nodes) acc

/-- `rmnet_create_pid_bps_resp` at a clock reading in nanoseconds, for an answer that its caller has cleared. -/
def rmnetCreatePidBpsResp (tab : PidTable) (now : ℕ) : PidTable × PidBpsResp × List PidReport :=
  let timestamp := u64 now
  let (tab, acc) := queryTable timestamp (List.finRange 256) tab ⟨0, List.replicate maxPids .cleared, []⟩
  (tab, { list := acc.list, timestamp := timestamp, listLen := u16 acc.i }, acc.log)

/-! ### What a query writes -/

/-- The nodes that a query reports: the first active ones, in the order of the table. -/
def PidTable.reported (tab : PidTable) : List RmnetPidNode :=
  ((Bucket.entries (List.finRange 256) tab).filter RmnetPidNode.active).take maxPids

theorem active_of_not_le {node : RmnetPidNode} (h : ¬ node.txBytes ≤ node.txBytesLastQuery) :
    node.active = true := by
  rw [RmnetPidNode.active, decide_eq_true_eq]
  omega

theorem not_active_of_le {node : RmnetPidNode} (h : node.txBytes ≤ node.txBytesLastQuery) :
    ¬ node.active = true := by
  rw [RmnetPidNode.active, decide_eq_true_eq]
  omega

theorem take_full {acc : QueryAcc} (h : maxPids ≤ acc.i) (nodes : List RmnetPidNode) :
    (nodes.filter RmnetPidNode.active).take (maxPids - acc.i) = [] := by
  rw [Nat.sub_eq_zero_of_le h, List.take_zero]

theorem take_write {acc : QueryAcc} (h : ¬ maxPids ≤ acc.i) (timestamp : ℕ) {node : RmnetPidNode}
    (hactive : node.active = true) (nodes : List RmnetPidNode) :
    ((node :: nodes).filter RmnetPidNode.active).take (maxPids - acc.i)
      = node :: (nodes.filter RmnetPidNode.active).take (maxPids - (acc.write timestamp node).i) := by
  have hsub : maxPids - acc.i = maxPids - (acc.write timestamp node).i + 1 := by
    show maxPids - acc.i = maxPids - (acc.i + 1) + 1
    omega
  rw [List.filter_cons_of_pos hactive, hsub, List.take_succ_cons]

/-- A bucket's part of the answer. -/
theorem queryBucket_acc (timestamp : ℕ) (nodes : List RmnetPidNode) :
    ∀ acc : QueryAcc, (queryBucket timestamp nodes acc).2
      = ((nodes.filter RmnetPidNode.active).take (maxPids - acc.i)).foldl (QueryAcc.write timestamp) acc := by
  induction nodes with
  | nil =>
    intro acc
    simp [queryBucket]
  | cons node nodes ih =>
    intro acc
    rw [queryBucket]
    split
    · rename_i hfull
      rw [take_full hfull]
      rfl
    · rename_i hfull
      split
      · rename_i hle
        rw [ih acc, List.filter_cons_of_neg (not_active_of_le hle)]
      · rename_i hle
        rw [take_write hfull timestamp (active_of_not_le hle), List.foldl_cons, ← ih]

/-- What the walk over a bucket leaves in it, for the nodes `rs` that it reports. -/
inductive Walked (timestamp : ℕ) : List RmnetPidNode → List RmnetPidNode → List RmnetPidNode → Prop
  | nil : Walked timestamp [] [] []
  | keep (x : RmnetPidNode) {xs ys rs : List RmnetPidNode} :
      Walked timestamp xs ys rs → Walked timestamp (x :: xs) (x :: ys) rs
  | drop {x : RmnetPidNode} {xs ys rs : List RmnetPidNode} :
      x.txBytes ≤ x.txBytesLastQuery → Walked timestamp xs ys rs → Walked timestamp (x :: xs) ys rs
  | report (x : RmnetPidNode) {xs ys rs : List RmnetPidNode} :
      Walked timestamp xs ys rs → Walked timestamp (x :: xs) (x.reported timestamp :: ys) (x :: rs)

theorem Walked.refl (timestamp : ℕ) (xs : List RmnetPidNode) : Walked timestamp xs xs [] := by
  induction xs with
  | nil => exact .nil
  | cons x xs ih => exact ih.keep x

theorem queryBucket_walked (timestamp : ℕ) (nodes : List RmnetPidNode) :
    ∀ acc : QueryAcc, Walked timestamp nodes (queryBucket timestamp nodes acc).1
      ((nodes.filter RmnetPidNode.active).take (maxPids - acc.i)) := by
  induction nodes with
  | nil =>
    intro acc
    simp only [queryBucket, List.filter_nil, List.take_nil]
    exact .nil
  | cons node nodes ih =>
    intro acc
    rw [queryBucket]
    split
    · rename_i hfull
      rw [take_full hfull]
      exact .refl timestamp _
    · rename_i hfull
      split
      · rename_i hle
        rw [List.filter_cons_of_neg (not_active_of_le hle)]
        exact (ih acc).drop hle
      · rename_i hle
        rw [take_write hfull timestamp (active_of_not_le hle)]
        exact (ih _).report node

theorem foldl_write_i (timestamp : ℕ) (rs : List RmnetPidNode) :
    ∀ acc : QueryAcc, (rs.foldl (QueryAcc.write timestamp) acc).i = acc.i + rs.length := by
  induction rs with
  | nil =>
    intro acc
    rfl
  | cons r rs ih =>
    intro acc
    rw [List.foldl_cons, ih, List.length_cons]
    show acc.i + 1 + rs.length = _
    omega

/-- **The walk over the table.**  Every bucket is walked with a part of the answer, and the parts are the first active
nodes in order. -/
theorem queryTable_walked (timestamp : ℕ) (bkts : List (Fin 256)) :
    ∀ (tab : PidTable) (acc : QueryAcc), bkts.Nodup →
      ∃ rs : Fin 256 → List RmnetPidNode,
        (∀ b ∈ bkts, Walked timestamp (tab b) ((queryTable timestamp bkts tab acc).1 b) (rs b)) ∧
        (∀ b ∉ bkts, (queryTable timestamp bkts tab acc).1 b = tab b) ∧
        bkts.flatMap rs = ((Bucket.entries bkts tab).filter RmnetPidNode.active).take (maxPids - acc.i) ∧
        (queryTable timestamp bkts tab acc).2 = (bkts.flatMap rs).foldl (QueryAcc.write timestamp) acc := by
  induction bkts with
  | nil =>
    intro tab acc _
    exact ⟨fun _ => [], fun _ hb => absurd hb List.not_mem_nil, fun _ _ => rfl, by simp [Bucket.entries], rfl⟩
  | cons bkt bkts ih =>
    intro tab acc hnodup
    obtain ⟨hnotin, hnodup⟩ := List.nodup_cons.mp hnodup
    have hacc := queryBucket_acc timestamp (tab bkt) acc
    have hwalked := queryBucket_walked timestamp (tab bkt) acc
    rw [queryTable]
    generalize hq : queryBucket timestamp (tab bkt) acc = q at hacc hwalked
    obtain ⟨nodes, acc'⟩ := q
    simp only at hacc hwalked ⊢
    obtain ⟨rs, hin, hout, hall, hrest⟩ := ih (Function.update tab bkt nodes) acc' hnodup
    have hi : acc'.i = acc.i + (((tab bkt).filter RmnetPidNode.active).take (maxPids - acc.i)).length := by
      rw [hacc, foldl_write_i]
    have hsame : ∀ b ∈ bkts, b ≠ bkt := by
      rintro b hb rfl
      exact hnotin hb
    have hparts : bkts.flatMap (Function.update rs bkt
        (((tab bkt).filter RmnetPidNode.active).take (maxPids - acc.i))) = bkts.flatMap rs :=
      List.flatMap_congr fun b hb => by rw [Function.update_of_ne (hsame b hb)]
    refine ⟨Function.update rs bkt (((tab bkt).filter RmnetPidNode.active).take (maxPids - acc.i)), ?_, ?_, ?_, ?_⟩
    · intro b hb
      rcases List.mem_cons.mp hb with rfl | hb
      · rw [hout b hnotin, Function.update_self, Function.update_self]
        exact hwalked
      · have hwalk := hin b hb
        rw [Function.update_of_ne (hsame b hb)] at hwalk ⊢
        exact hwalk
    · intro b hb
      rw [List.mem_cons, not_or] at hb
      rw [hout b hb.2, Function.update_of_ne hb.1]
    · rw [List.flatMap_cons, Function.update_self, hparts, hall, Bucket.entries_update_of_notMem tab nodes hnotin, hi]
      show _ = ((tab bkt ++ Bucket.entries bkts tab).filter RmnetPidNode.active).take (maxPids - acc.i)
      rw [List.filter_append, List.take_append, List.length_take]
      congr 2
      omega
    · rw [List.flatMap_cons, Function.update_self, hparts, List.foldl_append, ← hacc]
      exact hrest

theorem foldl_write (timestamp : ℕ) (rs : List RmnetPidNode) :
    ∀ (es : List PidBpsInfo) (m : ℕ) (log : List PidReport), rs.length ≤ m →
      rs.foldl (QueryAcc.write timestamp) ⟨es.length, es ++ List.replicate m .cleared, log⟩
        = ⟨es.length + rs.length, es ++ rs.map (RmnetPidNode.info timestamp) ++ List.replicate (m - rs.length) .cleared,
            log ++ rs.map (RmnetPidNode.report timestamp)⟩ := by
  induction rs with
  | nil =>
    intro es m log _
    simp
  | cons r rs ih =>
    intro es m log hle
    obtain ⟨m, rfl⟩ : ∃ k, m = k + 1 := ⟨m - 1, by rw [List.length_cons] at hle; omega⟩
    have hwrite : QueryAcc.write timestamp ⟨es.length, es ++ List.replicate (m + 1) .cleared, log⟩ r
        = ⟨(es ++ [r.info timestamp]).length, es ++ [r.info timestamp] ++ List.replicate m .cleared,
            log ++ [r.report timestamp]⟩ := by
      rw [QueryAcc.write, List.replicate_succ, List.set_append_right _ _ le_rfl, Nat.sub_self]
      simp
    rw [List.foldl_cons, hwrite, ih _ _ _ (by rw [List.length_cons] at hle; omega)]
    simp only [List.length_append, List.length_cons, List.length_nil, List.map_cons, List.append_assoc,
      List.cons_append, List.nil_append, Nat.add_sub_add_right]
    congr 1
    omega

/-- A query by its walk.  The walk is named, so that nothing evaluates it. -/
theorem query_walk (tab : PidTable) (now : ℕ) {walk : PidTable × QueryAcc}
    (hwalk : queryTable (u64 now) (List.finRange 256) tab ⟨0, List.replicate maxPids .cleared, []⟩ = walk) :
    rmnetCreatePidBpsResp tab now
      = (walk.1, { list := walk.2.list, timestamp := u64 now, listLen := u16 walk.2.i }, walk.2.log) := by
  obtain ⟨tab', acc⟩ := walk
  unfold rmnetCreatePidBpsResp
  simp only [hwalk]

/-- **The answer.**  A query writes an entry for each of the first active nodes and leaves the rest of the answer
cleared. -/
theorem query_answer (tab : PidTable) (now : ℕ) :
    (rmnetCreatePidBpsResp tab now).2
      = ({ list := tab.reported.map (RmnetPidNode.info (u64 now)) ++
            List.replicate (maxPids - tab.reported.length) .cleared
           timestamp := u64 now
           listLen := tab.reported.length },
          tab.reported.map (RmnetPidNode.report (u64 now))) := by
  obtain ⟨rs, -, -, hall, hacc⟩ :=
    queryTable_walked (u64 now) (List.finRange 256) tab ⟨0, List.replicate maxPids .cleared, []⟩
      (List.nodup_finRange 256)
  have hreported : (List.finRange 256).flatMap rs = tab.reported := hall
  have hle : tab.reported.length ≤ maxPids := by
    rw [PidTable.reported, List.length_take]
    exact Nat.min_le_left _ _
  have hwrite := foldl_write (u64 now) tab.reported [] maxPids [] hle
  simp only [List.length_nil, List.nil_append, Nat.zero_add] at hwrite
  have hu : u16 tab.reported.length = tab.reported.length := u16_of_lt (hle.trans_lt (by decide))
  rw [hreported, hwrite] at hacc
  rw [query_walk tab now rfl, hacc, hu]

/-! ### What a query leaves -/

section

variable {timestamp : ℕ} {xs ys rs : List RmnetPidNode}

theorem Walked.subset (h : Walked timestamp xs ys rs) : rs ⊆ xs := by
  induction h with
  | nil => exact fun _ hr => hr
  | keep x _ ih => exact fun r hr => List.mem_cons_of_mem x (ih hr)
  | drop _ _ ih => exact fun r hr => List.mem_cons_of_mem _ (ih hr)
  | report x _ ih => exact List.cons_subset_cons x ih

theorem Walked.keys (h : Walked timestamp xs ys rs) :
    (ys.map RmnetPidNode.pid).Sublist (xs.map RmnetPidNode.pid) := by
  induction h with
  | nil => exact List.Sublist.refl _
  | keep x _ ih => exact ih.cons_cons x.pid
  | @drop x _ _ _ _ _ ih => exact ih.cons x.pid
  | report x _ ih => exact ih.cons_cons x.pid

/-- A node that is left was reported now, or it is as before and not among the reported. -/
theorem Walked.left (h : Walked timestamp xs ys rs) (hn : (xs.map RmnetPidNode.pid).Nodup) :
    ∀ y ∈ ys, (∃ x ∈ rs, y = x.reported timestamp) ∨ (y ∈ xs ∧ ∀ r ∈ rs, r.pid ≠ y.pid) := by
  induction h with
  | nil => exact fun _ hy => absurd hy List.not_mem_nil
  | @keep x xs ys rs hwalk ih =>
    obtain ⟨hx, hn⟩ := List.nodup_cons.mp hn
    intro y hy
    rcases List.mem_cons.mp hy with rfl | hy
    · exact .inr ⟨List.mem_cons_self, fun r hr hk => hx (hk ▸ List.mem_map_of_mem (hwalk.subset hr))⟩
    · rcases ih hn y hy with hrep | ⟨hmem, hne⟩
      · exact .inl hrep
      · exact .inr ⟨List.mem_cons_of_mem _ hmem, hne⟩
  | drop hle hwalk ih =>
    intro y hy
    rcases ih (List.nodup_cons.mp hn).2 y hy with hrep | ⟨hmem, hne⟩
    · exact .inl hrep
    · exact .inr ⟨List.mem_cons_of_mem _ hmem, hne⟩
  | @report x xs ys rs hwalk ih =>
    obtain ⟨hx, hn⟩ := List.nodup_cons.mp hn
    intro y hy
    rcases List.mem_cons.mp hy with rfl | hy
    · exact .inl ⟨x, List.mem_cons_self, rfl⟩
    · rcases ih hn y hy with ⟨z, hz, hy⟩ | ⟨hmem, hne⟩
      · exact .inl ⟨z, List.mem_cons_of_mem _ hz, hy⟩
      · refine .inr ⟨List.mem_cons_of_mem _ hmem, fun r hr => ?_⟩
        rcases List.mem_cons.mp hr with rfl | hr
        · exact fun hk => hx (hk ▸ List.mem_map_of_mem hmem)
        · exact hne r hr

/-- A process that is gone had sent nothing since it was last reported. -/
theorem Walked.gone (h : Walked timestamp xs ys rs) :
    ∀ x ∈ xs, (∃ y ∈ ys, y.pid = x.pid) ∨ x.txBytes ≤ x.txBytesLastQuery := by
  induction h with
  | nil => exact fun _ hx => absurd hx List.not_mem_nil
  | @keep x xs ys rs _ ih =>
    intro z hz
    rcases List.mem_cons.mp hz with rfl | hz
    · exact .inl ⟨z, List.mem_cons_self, rfl⟩
    · rcases ih z hz with ⟨y, hy, hk⟩ | hle
      · exact .inl ⟨y, List.mem_cons_of_mem _ hy, hk⟩
      · exact .inr hle
  | drop hle _ ih =>
    intro z hz
    rcases List.mem_cons.mp hz with rfl | hz
    · exact .inr hle
    · exact ih z hz
  | @report x xs ys rs _ ih =>
    intro z hz
    rcases List.mem_cons.mp hz with rfl | hz
    · exact .inl ⟨z.reported timestamp, List.mem_cons_self, rfl⟩
    · rcases ih z hz with ⟨y, hy, hk⟩ | hle
      · exact .inl ⟨y, List.mem_cons_of_mem _ hy, hk⟩
      · exact .inr hle

/-! ### The whole table -/

/-- What the walk leaves is a hash table. -/
theorem Walked.placed {hashMin : ℤ → Fin 256} {tab tab' : PidTable} {rs : Fin 256 → List RmnetPidNode}
    (hwalk : ∀ b, Walked timestamp (tab b) (tab' b) (rs b)) (h : Placed RmnetPidNode.pid hashMin tab) :
    Placed RmnetPidNode.pid hashMin tab' := by
  refine ⟨fun b y hy => ?_, fun b => (hwalk b).keys.nodup (h.nodup b)⟩
  have hleft : y.pid ∈ (tab b).map RmnetPidNode.pid := (hwalk b).keys.subset (List.mem_map_of_mem hy)
  obtain ⟨x, hx, hk⟩ := List.mem_map.mp hleft
  rw [← hk]
  exact h.bucket b x hx

/-- A node of a process that is reported is the one that is reported. -/
theorem Walked.reported_mem {hashMin : ℤ → Fin 256} {tab tab' : PidTable} {rs : Fin 256 → List RmnetPidNode}
    (hwalk : ∀ b, Walked timestamp (tab b) (tab' b) (rs b)) (h : Placed RmnetPidNode.pid hashMin tab) {b : Fin 256}
    {y : RmnetPidNode} (hy : y ∈ tab b) (hpid : y.pid ∈ ((List.finRange 256).flatMap rs).map RmnetPidNode.pid) :
    y ∈ rs b := by
  obtain ⟨x, hx, hk⟩ := List.mem_map.mp hpid
  obtain ⟨c, -, hx⟩ := List.mem_flatMap.mp hx
  obtain ⟨rfl, rfl⟩ := h.unique ((hwalk c).subset hx) hy hk
  exact hx

end

end Rmnet
