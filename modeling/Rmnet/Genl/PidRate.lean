import Rmnet.Genl.PidStats
import Rmnet.Lib.Transition

/-!
# Rates over whole runs

A run is any sequence of calls that count bytes, ask for boosts or answer queries, at clock readings that never go
back.  Beside the table stands a ledger: the bytes charged to every process since it was last reported.  A call
charges its bytes unless it needs a new node and finds no memory for it.

* `GenlInv.step` — a node has the bytes of the ledger between its two counters;
* `answer_right_iff` — when an answer is right, by the times of the nodes that it reports;
* `rates_right_iff` — over every run, as long as no counter overflows.
-/

namespace Rmnet

open Word Chained Transition

/-! ### Runs -/

/-- The table, the last clock reading, and the bytes charged to a process since it was last reported. -/
structure GenlState where
  table : PidTable
  clock : ℕ
  pending : ℤ → ℕ

/-- The calls. -/
inductive GenlCall
  | update (pid : ℤ) (len : ℕ) (kzalloc : Bool)
  | boost (pid boostEnable : ℤ) (boostPeriod : ℕ)
  | query (now : ℕ)

/-- No process has been counted. -/
def GenlInit (s : GenlState) : Prop := s.table = (fun _ => []) ∧ s.pending = fun _ => 0

section

variable (hashMin : ℤ → Fin 256)

/-- The process has a node, or gets one. -/
def charged (tab : PidTable) (pid : ℤ) (kzalloc : Bool) : Bool :=
  ((tab (hashMin pid)).find? fun node => node.pid = pid).isSome || kzalloc

/-- The state after a call, with the ledger. -/
def genlNext (s : GenlState) : GenlCall → GenlState
  | .update pid len kzalloc =>
      { s with
        table := (rmnetUpdatePidAndCheckBoost hashMin s.table pid len kzalloc).1
        pending :=
          if charged hashMin s.table pid kzalloc then Function.update s.pending pid (s.pending pid + len)
          else s.pending }
  | .boost pid boostEnable boostPeriod =>
      { s with table := rmnetBoostForPid hashMin s.table pid boostEnable boostPeriod }
  | .query now =>
      { table := (rmnetCreatePidBpsResp s.table now).1
        clock := now
        pending := fun pid =>
          if pid ∈ (rmnetCreatePidBpsResp s.table now).2.2.map PidReport.pid then 0 else s.pending pid }

/-- The clock does not go back, and fits in a `u64`. -/
def ClockAt (s : GenlState) : GenlCall → Prop
  | .query now => s.clock ≤ now ∧ now < 18446744073709551616
  | _ => True

/-- One call. -/
def GenlStep (s : GenlState) (l : GenlCall) (s' : GenlState) : Prop := ClockAt s l ∧ s' = genlNext hashMin s l

/-! ### Conditions on the calls -/

/-- The call takes no counter to 2^64. -/
def Fits (s : GenlState) : GenlCall → Prop
  | .update pid len _ =>
      len < 18446744073709551616 ∧
        ∀ node ∈ s.table (hashMin pid), node.pid = pid → node.txBytes + len < 18446744073709551616
  | _ => True

/-- A query comes at least a second after the last report of every node that it reports, and the seconds since then
are no multiple of 2^32. -/
def Timely (s : GenlState) : GenlCall → Prop
  | .query now =>
      ∀ node ∈ s.table.reported, node.timstampLastQuery + 1000000000 ≤ now ∧
        ¬ 4294967296 ∣ (now - node.timstampLastQuery) / 1000000000
  | _ => True

/-- What an answer and its log should be: no division by zero, at most `maxPids` entries, as many as `list_len` says
and with the processes of the log, and for every process the bytes of the ledger. -/
structure AnswerRight (pending : ℤ → ℕ) (resp : PidBpsResp) (log : List PidReport) : Prop where
  divisor : ∀ e ∈ log, e.divisor ≠ 0
  length_le : log.length ≤ maxPids
  listLen : resp.listLen = log.length
  written : resp.list.map PidBpsInfo.pid
    = log.map (fun e => toU32 e.pid) ++ List.replicate (maxPids - log.length) 0
  byteDiff : ∀ e ∈ log, e.byteDiff = pending e.pid

/-- The answer to a query is right. -/
def RatesRight (s : GenlState) : GenlCall → Prop
  | .query now =>
      AnswerRight s.pending (rmnetCreatePidBpsResp s.table now).2.1 (rmnetCreatePidBpsResp s.table now).2.2
  | _ => True

/-! ### The invariant -/

/-- What holds of a node: its counters hold the bytes of the ledger, and it was not reported in the future. -/
structure NodeInv (pending : ℤ → ℕ) (clock : ℕ) (node : RmnetPidNode) : Prop where
  last_le : node.txBytesLastQuery ≤ node.txBytes
  fits : node.txBytes < 18446744073709551616
  pending_eq : pending node.pid = node.txBytes - node.txBytesLastQuery
  past : node.timstampLastQuery ≤ clock

/-- The table is a hash table, its nodes have the bytes of the ledger, and a process without a node has none. -/
structure GenlInv (s : GenlState) : Prop where
  placed : Placed RmnetPidNode.pid hashMin s.table
  node : ∀ b, ∀ x ∈ s.table b, NodeInv s.pending s.clock x
  absent : ∀ pid, (∀ x ∈ s.table (hashMin pid), x.pid ≠ pid) → s.pending pid = 0

theorem genlInv_init {s : GenlState} (h : GenlInit s) : GenlInv hashMin s := by
  obtain ⟨htable, hpending⟩ := h
  refine ⟨by rw [htable]; exact placed_empty, fun b x hx => ?_, fun pid _ => by rw [hpending]⟩
  rw [htable] at hx
  exact absurd hx List.not_mem_nil

variable {hashMin : ℤ → Fin 256} {s s' : GenlState}

/-- The entry of another process in the ledger does not matter to a node. -/
theorem NodeInv.other {pending : ℤ → ℕ} {clock : ℕ} {x : RmnetPidNode} (h : NodeInv pending clock x) {pid : ℤ}
    (hne : x.pid ≠ pid) (v : ℕ) : NodeInv (Function.update pending pid v) clock x :=
  ⟨h.last_le, h.fits, by rw [Function.update_of_ne hne]; exact h.pending_eq, h.past⟩

/-- The chain of a process and its entry in the ledger are replaced. -/
theorem GenlInv.replace (h : GenlInv hashMin s) {pid : ℤ} {v : ℕ} {xs : List RmnetPidNode}
    (hplaced : Placed RmnetPidNode.pid hashMin (Function.update s.table (hashMin pid) xs))
    (hxs : ∀ y ∈ xs, NodeInv (Function.update s.pending pid v) s.clock y)
    (habsent : ∀ k, hashMin k = hashMin pid → (∀ y ∈ xs, y.pid ≠ k) → Function.update s.pending pid v k = 0) :
    GenlInv hashMin { s with
      table := Function.update s.table (hashMin pid) xs
      pending := Function.update s.pending pid v } := by
  refine ⟨hplaced, fun b y hy => ?_, fun k hk => ?_⟩
  · by_cases hb : b = hashMin pid
    · subst hb
      simp only [Function.update_self] at hy
      exact hxs y hy
    · simp only [Function.update_of_ne hb] at hy
      refine (h.node b y hy).other (fun hpid => hb ?_) v
      rw [← hpid]
      exact (h.placed.bucket b y hy).symm
  · by_cases hb : hashMin k = hashMin pid
    · simp only [hb, Function.update_self] at hk
      exact habsent k hb hk
    · simp only [Function.update_of_ne hb] at hk
      show Function.update s.pending pid v k = 0
      rw [Function.update_of_ne fun hpid => hb (congrArg hashMin hpid)]
      exact h.absent k hk

/-- The node of a process is changed: its two counters are `n` bytes further apart. -/
theorem GenlInv.modify (h : GenlInv hashMin s) (pid : ℤ) {n : ℕ} {f : RmnetPidNode → RmnetPidNode}
    (hpid : ∀ x, (f x).pid = x.pid) (hlast : ∀ x, (f x).txBytesLastQuery = x.txBytesLastQuery)
    (htime : ∀ x, (f x).timstampLastQuery = x.timstampLastQuery)
    (hbytes : ∀ x ∈ s.table (hashMin pid), x.pid = pid →
      (f x).txBytes = x.txBytes + n ∧ x.txBytes + n < 18446744073709551616)
    (hfound : n = 0 ∨ ∃ x ∈ s.table (hashMin pid), x.pid = pid) :
    GenlInv hashMin { s with
      table := Function.update s.table (hashMin pid) (modifyKey RmnetPidNode.pid pid f (s.table (hashMin pid)))
      pending := Function.update s.pending pid (s.pending pid + n) } := by
  refine h.replace (h.placed.modify hpid pid) (fun y hy => ?_) fun k hb habsent => ?_
  · rcases mem_modifyKey (h.placed.nodup _) hy with ⟨x, hx, hk, rfl⟩ | ⟨hy, hk⟩
    · obtain ⟨hle, hlt, hpend, hpast⟩ := h.node _ x hx
      obtain ⟨heq, hfits⟩ := hbytes x hx hk
      refine ⟨?_, ?_, ?_, ?_⟩
      · rw [hlast, heq]
        omega
      · rw [heq]
        exact hfits
      · rw [hpid, hk, Function.update_self, ← hk, hpend, heq, hlast]
        omega
      · rw [htime]
        exact hpast
    · exact (h.node _ y hy).other hk _
  · -- the changed chain has the same processes
    have hsame : ∀ x ∈ s.table (hashMin k), x.pid ≠ k := by
      intro x hx hk
      have hmem : k ∈ (modifyKey RmnetPidNode.pid pid f (s.table (hashMin pid))).map RmnetPidNode.pid := by
        rw [map_modifyKey hpid, ← hb]
        exact List.mem_map.mpr ⟨x, hx, hk⟩
      obtain ⟨y, hy, hyk⟩ := List.mem_map.mp hmem
      exact habsent y hy hyk
    by_cases hk : k = pid
    · subst hk
      rw [Function.update_self, h.absent k hsame]
      rcases hfound with hn | ⟨x, hx, hxk⟩
      · omega
      · exact absurd hxk (hsame x hx)
    · rw [Function.update_of_ne hk]
      exact h.absent k hsame

theorem find_pid_some {nodes : List RmnetPidNode} {pid : ℤ} {node : RmnetPidNode}
    (h : (nodes.find? fun node => node.pid = pid) = some node) : node ∈ nodes ∧ node.pid = pid :=
  ⟨List.mem_of_find?_eq_some h, by simpa using List.find?_some h⟩

theorem find_pid_none {nodes : List RmnetPidNode} {pid : ℤ}
    (h : (nodes.find? fun node => node.pid = pid) = none) : ∀ x ∈ nodes, x.pid ≠ pid := by
  intro x hx
  simpa using List.find?_eq_none.mp h x hx

/-- A call that counts bytes. -/
theorem GenlInv.update (h : GenlInv hashMin s) (pid : ℤ) (len : ℕ) (kzalloc : Bool)
    (hfits : Fits hashMin s (.update pid len kzalloc)) :
    GenlInv hashMin (genlNext hashMin s (.update pid len kzalloc)) := by
  obtain ⟨hlen, hroom⟩ := hfits
  unfold genlNext charged
  simp only
  obtain hfind | ⟨node, hfind⟩ := Option.eq_none_or_eq_some ((s.table (hashMin pid)).find? fun node => node.pid = pid)
  · have hnew := find_pid_none hfind
    have hzero := h.absent pid hnew
    rw [updatePid_new hashMin len kzalloc hfind, hfind]
    cases kzalloc with
    | false => exact h
    | true =>
      simp only [Bool.or_true, if_true]
      refine h.replace (h.placed.insert (x := { pid := pid, txBytes := len }) hnew) (fun y hy => ?_)
        fun k hb habsent => ?_
      · rcases List.mem_cons.mp hy with rfl | hy
        · refine ⟨Nat.zero_le _, hlen, ?_, Nat.zero_le _⟩
          rw [Function.update_self, hzero]
          exact Nat.zero_add len
        · exact (h.node _ y hy).other (hnew y hy) _
      · have hk : k ≠ pid := fun hk => habsent _ List.mem_cons_self hk.symm
        rw [Function.update_of_ne hk]
        refine h.absent k fun x hx => ?_
        rw [hb] at hx
        exact habsent x (List.mem_cons_of_mem _ hx)
  · obtain ⟨hmem, hk⟩ := find_pid_some hfind
    rw [updatePid_found hashMin len kzalloc hfind, hfind, Option.isSome_some, Bool.true_or, if_pos rfl]
    refine h.modify pid (fun x => (x.charge_fields len).1) (fun x => (x.charge_fields len).2.1)
      (fun x => (x.charge_fields len).2.2.1) (fun x hx hxk => ⟨?_, hroom x hx hxk⟩) (.inr ⟨node, hmem, hk⟩)
    rw [(x.charge_fields len).2.2.2, u64_of_lt (hroom x hx hxk)]

/-- A call that asks for a boost. -/
theorem GenlInv.boost (h : GenlInv hashMin s) (pid boostEnable : ℤ) (boostPeriod : ℕ) :
    GenlInv hashMin (genlNext hashMin s (.boost pid boostEnable boostPeriod)) := by
  have hmodify := h.modify pid (n := 0)
    (f := fun node => { node with schedBoostEnable := boostEnable, schedBoostPeriodMs := boostPeriod })
    (fun _ => rfl) (fun _ => rfl) (fun _ => rfl) (fun x hx _ => ⟨rfl, (h.node _ x hx).fits⟩) (.inl rfl)
  rw [Nat.add_zero, Function.update_eq_self] at hmodify
  exact hmodify

/-- The log has the reported nodes. -/
theorem log_pids (tab : PidTable) (now : ℕ) :
    (rmnetCreatePidBpsResp tab now).2.2.map PidReport.pid = tab.reported.map RmnetPidNode.pid := by
  rw [query_answer, List.map_map]
  rfl

/-- A query. -/
theorem GenlInv.query (h : GenlInv hashMin s) {now : ℕ} (hclock : s.clock ≤ now) (hnow : now < 18446744073709551616) :
    GenlInv hashMin (genlNext hashMin s (.query now)) := by
  rw [genlNext, log_pids]
  obtain ⟨rs, hwalk, -, hall, -⟩ :=
    queryTable_walked (u64 now) (List.finRange 256) s.table ⟨0, List.replicate maxPids .cleared, []⟩
      (List.nodup_finRange 256)
  generalize hq : queryTable (u64 now) (List.finRange 256) s.table ⟨0, List.replicate maxPids .cleared, []⟩ = walk
    at hwalk
  rw [query_walk s.table now hq]
  generalize walk.1 = tab' at hwalk ⊢
  have hwalk := fun b => hwalk b (List.mem_finRange b)
  have hreported : s.table.reported = (List.finRange 256).flatMap rs := hall.symm
  rw [hreported]
  refine ⟨Walked.placed hwalk h.placed, fun b y hy => ?_, fun k habsent => ?_⟩
  · rcases (hwalk b).left (h.placed.nodup b) y hy with ⟨x, hx, rfl⟩ | ⟨hy, hne⟩
    · -- reported now: its entry is cleared
      obtain ⟨hle, hlt, -, -⟩ := h.node b x ((hwalk b).subset hx)
      have hpid : (x.reported (u64 now)).pid ∈ ((List.finRange 256).flatMap rs).map RmnetPidNode.pid :=
        List.mem_map.mpr ⟨x, List.mem_flatMap.mpr ⟨b, List.mem_finRange b, hx⟩, rfl⟩
      refine ⟨le_rfl, hlt, ?_, (u64_of_lt hnow).le⟩
      simp only
      rw [if_pos hpid]
      exact (Nat.sub_self _).symm
    · -- not reported: its entry is kept
      obtain ⟨hle, hlt, hpend, hpast⟩ := h.node b y hy
      refine ⟨hle, hlt, ?_, hpast.trans hclock⟩
      simp only
      rw [if_neg fun hpid => hne y (Walked.reported_mem hwalk h.placed hy hpid) rfl]
      exact hpend
  · simp only at habsent ⊢
    split
    · rfl
    · by_cases hold : ∀ x ∈ s.table (hashMin k), x.pid ≠ k
      · exact h.absent k hold
      · -- dropped: it had nothing to report
        push Not at hold
        obtain ⟨x, hx, rfl⟩ := hold
        obtain ⟨hle, -, hpend, -⟩ := h.node _ x hx
        rcases (hwalk _).gone x hx with ⟨y, hy, hk⟩ | hidle
        · exact absurd hk (habsent y hy)
        · omega

/-- **One call.** -/
theorem GenlInv.step (h : GenlInv hashMin s) {l : GenlCall} (hs : GenlStep hashMin s l s')
    (hfits : Fits hashMin s l) : GenlInv hashMin s' := by
  obtain ⟨hclock, rfl⟩ := hs
  cases l with
  | update pid len kzalloc => exact h.update pid len kzalloc hfits
  | boost pid boostEnable boostPeriod => exact h.boost pid boostEnable boostPeriod
  | query now => exact h.query hclock.1 hclock.2

/-! ### The answers -/

/-- A reported node is in the table. -/
theorem mem_reported {tab : PidTable} {x : RmnetPidNode} (hx : x ∈ tab.reported) : ∃ b, x ∈ tab b := by
  obtain ⟨b, -, hb⟩ := Bucket.mem_entries.mp (List.mem_of_mem_filter (List.mem_of_mem_take hx))
  exact ⟨b, hb⟩

/-- The divisor is zero in the second of the last report, and in every second that begins a multiple of 2^32 after
it. -/
theorem divisor_ne_zero_iff {node : RmnetPidNode} {now : ℕ} (hpast : node.timstampLastQuery ≤ now)
    (hnow : now < 18446744073709551616) :
    node.divisor (u64 now) ≠ 0 ↔ node.timstampLastQuery + 1000000000 ≤ now ∧
      ¬ 4294967296 ∣ (now - node.timstampLastQuery) / 1000000000 := by
  rw [RmnetPidNode.divisor, u64_of_lt hnow, sub64_of_le hpast hnow, u32, Nat.dvd_iff_mod_eq_zero]
  omega

/-- **One answer.**  It is right exactly when the query is timely. -/
theorem answer_right_iff (h : GenlInv hashMin s) {now : ℕ} (hclock : s.clock ≤ now)
    (hnow : now < 18446744073709551616) : RatesRight s (.query now) ↔ Timely s (.query now) := by
  have hpast : ∀ node ∈ s.table.reported, node.timstampLastQuery ≤ now := by
    intro node hnode
    obtain ⟨b, hb⟩ := mem_reported hnode
    exact (h.node b node hb).past.trans hclock
  unfold RatesRight Timely
  simp only
  rw [query_answer]
  refine ⟨fun hright node hnode => ?_, fun htimely => ⟨fun e he => ?_, ?_, ?_, ?_, fun e he => ?_⟩⟩
  · exact (divisor_ne_zero_iff (hpast node hnode) hnow).mp (hright.divisor _ (List.mem_map_of_mem hnode))
  · obtain ⟨node, hnode, rfl⟩ := List.mem_map.mp he
    exact (divisor_ne_zero_iff (hpast node hnode) hnow).mpr (htimely node hnode)
  · rw [List.length_map, PidTable.reported, List.length_take]
    exact Nat.min_le_left _ _
  · rw [List.length_map]
  · simp only [List.map_append, List.map_map, List.map_replicate, List.length_map]
    rfl
  · obtain ⟨node, hnode, rfl⟩ := List.mem_map.mp he
    obtain ⟨b, hb⟩ := mem_reported hnode
    obtain ⟨hle, hlt, hpend, -⟩ := h.node b node hb
    show sub64 node.txBytes node.txBytesLastQuery = s.pending node.pid
    rw [sub64_of_le hle hlt, hpend]

/-- **Rates of processes.**  In every run in which no count of bytes reaches 2^64, all answers are right exactly when
all queries are timely. -/
theorem rates_right_iff (hashMin : ℤ → Fin 256) (h : List (GenlState × GenlCall)) (s : GenlState)
    (hex : Exec GenlInit (GenlStep hashMin) h s) (hfits : ∀ x ∈ h, Fits hashMin x.1 x.2) :
    (∀ x ∈ h, RatesRight x.1 x.2) ↔ ∀ x ∈ h, Timely x.1 x.2 := by
  have hinv : ∀ t ∈ h.map Prod.fst ++ [s], GenlInv hashMin t :=
    hex.invariant (fun _ => genlInv_init hashMin)
      (fun t l _ hI hs (hok : Fits hashMin t l) => GenlInv.step hI hs hok) hfits
  refine forall₂_congr fun x hx => ?_
  have hI := hinv x.1 (List.mem_append_left _ (List.mem_map_of_mem hx))
  obtain ⟨s', hclock, -⟩ := hex.taken x hx
  obtain ⟨t, l⟩ := x
  cases l with
  | update pid len kzalloc => exact Iff.rfl
  | boost pid boostEnable boostPeriod => exact Iff.rfl
  | query now => exact answer_right_iff hI hclock.1 hclock.2

end

/-! ### Two queries at different times -/

/-- `hash_min` of a `pid_t`, for eight bits: the top bits of the product with `GOLDEN_RATIO_32`. -/
def goldenHash (pid : ℤ) : Fin 256 :=
  ⟨u32 (toU32 pid * 0x61C88647) / 16777216, by
    have hlt : u32 (toU32 pid * 0x61C88647) < 4294967296 := Nat.mod_lt _ (by decide)
    omega⟩

/-- No process, at time 0. -/
def genlStart : GenlState := { table := fun _ => [], clock := 0, pending := fun _ => 0 }

/-- Process 7 has sent 1000 bytes. -/
def genlSent : GenlState := genlNext goldenHash genlStart (.update 7 1000 true)

/-- Its rate was asked for after five seconds. -/
def genlAsked : GenlState := genlNext goldenHash genlSent (.query 5000000000)

/-- It has sent 500 bytes more. -/
def genlSentMore : GenlState := genlNext goldenHash genlAsked (.update 7 500 true)

/-- The node of process 7 then. -/
def nodeSentMore : RmnetPidNode :=
  { pid := 7, timstampLastQuery := 5000000000, txBytes := 1500, txBytesLastQuery := 1000, txBps := 1600 }

theorem genlSent_reported : genlSent.table.reported = [{ pid := 7, txBytes := 1000 }] := by decide +kernel

theorem genlAsked_chain : genlAsked.table (goldenHash 7) = [{ nodeSentMore with txBytes := 1000 }] := by
  decide +kernel

theorem genlSentMore_reported : genlSentMore.table.reported = [nodeSentMore] := by decide +kernel

/-- The three calls. -/
def threeCalls : List (GenlState × GenlCall) :=
  [(genlStart, .update 7 1000 true), (genlSent, .query 5000000000), (genlAsked, .update 7 500 true)]

theorem threeCalls_exec : Exec GenlInit (GenlStep goldenHash) threeCalls genlSentMore :=
  (((Exec.start ⟨rfl, rfl⟩).next ⟨trivial, rfl⟩).next ⟨⟨Nat.zero_le _, by decide⟩, rfl⟩).next ⟨trivial, rfl⟩

/-- The three calls, and a query. -/
theorem fourCalls_exec (now : ℕ) (hclock : 5000000000 ≤ now) (hnow : now < 18446744073709551616) :
    Exec GenlInit (GenlStep goldenHash) (threeCalls ++ [(genlSentMore, .query now)])
      (genlNext goldenHash genlSentMore (.query now)) :=
  threeCalls_exec.next ⟨⟨hclock, hnow⟩, rfl⟩

theorem fourCalls_fits (now : ℕ) :
    ∀ x ∈ threeCalls ++ [(genlSentMore, .query now)], Fits goldenHash x.1 x.2 := by
  simp only [threeCalls, List.cons_append, List.nil_append, List.forall_mem_cons, List.not_mem_nil, false_implies,
    implies_true, and_true]
  refine ⟨⟨by decide, fun _ hnode => absurd hnode List.not_mem_nil⟩, trivial, ⟨by decide, fun node hnode _ => ?_⟩,
    trivial⟩
  rw [genlAsked_chain, List.mem_singleton] at hnode
  rw [hnode]
  decide

theorem rates_right_fourCalls :
    Exec GenlInit (GenlStep goldenHash) (threeCalls ++ [(genlSentMore, .query 6000000000)])
        (genlNext goldenHash genlSentMore (.query 6000000000)) ∧
      ∀ x ∈ threeCalls ++ [(genlSentMore, .query 6000000000)], RatesRight x.1 x.2 := by
  have hex := fourCalls_exec 6000000000 (by decide) (by decide)
  refine ⟨hex, (rates_right_iff goldenHash _ _ hex (fourCalls_fits _)).mpr ?_⟩
  simp only [threeCalls, List.cons_append, List.nil_append, List.forall_mem_cons, List.not_mem_nil, false_implies,
    implies_true, and_true]
  refine ⟨trivial, fun node hnode => ?_, trivial, fun node hnode => ?_⟩
  · rw [genlSent_reported, List.mem_singleton] at hnode
    rw [hnode]
    decide
  · rw [genlSentMore_reported, List.mem_singleton] at hnode
    rw [hnode]
    decide

/-- **A division by zero.**  Process 7 sends 1000 bytes and its rate is asked for after five seconds; it sends 500 more
and its rate is asked for half a second later. -/
theorem rate_divides_by_zero :
    Exec GenlInit (GenlStep goldenHash) (threeCalls ++ [(genlSentMore, .query 5500000000)])
        (genlNext goldenHash genlSentMore (.query 5500000000)) ∧
      (∀ x ∈ threeCalls ++ [(genlSentMore, .query 5500000000)], Fits goldenHash x.1 x.2) ∧
      ¬ ∀ x ∈ threeCalls ++ [(genlSentMore, .query 5500000000)], RatesRight x.1 x.2 := by
  refine ⟨fourCalls_exec _ (by decide) (by decide), fourCalls_fits _, fun hright => ?_⟩
  have hlast : RatesRight genlSentMore (.query 5500000000) :=
    hright (genlSentMore, .query 5500000000) (List.mem_append_right _ List.mem_cons_self)
  refine hlast.divisor (nodeSentMore.report (u64 5500000000)) ?_ (by decide)
  rw [query_answer, genlSentMore_reported]
  exact List.mem_cons_self

end Rmnet
