import Rmnet.Lib.Transition
import Rmnet.Uplink.Aggregate

/-!
# The page recycling cursor

`agg_head` walks around `agg_list`, one request at a time: `rmnet_get_agg_pages` looks at up to six pages from
the cursor on, hands out the first one that nobody else holds, and leaves the cursor behind it.  The list is
circular, and behind its last entry comes its head, which is no page.

* `aggPagesLoop_stays`, `aggPagesLoop_strays` — a request that does not come to the last entry stays on the
  list; one that does leaves it.
* `recycle_cursor_iff` — when the cursor, and whatever a request inspects or hands out, is on the list
  throughout a run.
-/

namespace Rmnet

open Transition

/-! ### The next entry -/

/-- The entries from one on. -/
def entriesFrom (l : List ℕ) (p : ℕ) : List ℕ := l.dropWhile (· ≠ p)

theorem entriesFrom_split (pre : List ℕ) (p : ℕ) (rest : List ℕ) (h : (pre ++ p :: rest).Nodup) :
    entriesFrom (pre ++ p :: rest) p = p :: rest := by
  rw [entriesFrom]
  induction pre with
  | nil => rw [List.nil_append, List.dropWhile_cons_of_neg (by simp)]
  | cons q pre ih =>
    rw [List.cons_append, List.nodup_cons] at h
    have hne : q ≠ p := by
      intro hq
      apply h.1
      rw [hq]
      simp
    rw [List.cons_append, List.dropWhile_cons_of_pos (by simpa using hne), ih h.2]

/-- Every entry has a place on the list. -/
theorem exists_split {l : List ℕ} {p : ℕ} (hp : p ∈ l) (hnd : l.Nodup) :
    ∃ pre rest, l = pre ++ p :: rest ∧ entriesFrom l p = p :: rest := by
  obtain ⟨pre, rest, rfl⟩ := List.append_of_mem hp
  exact ⟨pre, rest, rfl, entriesFrom_split pre p rest hnd⟩

theorem listNextEntry_inside (pre : List ℕ) (p q : ℕ) (rest : List ℕ) (h : (pre ++ p :: q :: rest).Nodup) :
    listNextEntry (pre ++ p :: q :: rest) (.entry p) = .entry q := by
  have hfrom := entriesFrom_split pre p (q :: rest) h
  rw [entriesFrom] at hfrom
  rw [listNextEntry, hfrom]

theorem listNextEntry_last (pre : List ℕ) (p : ℕ) (h : (pre ++ [p]).Nodup) :
    listNextEntry (pre ++ [p]) (.entry p) = .listHead := by
  have hfrom := entriesFrom_split pre p [] h
  rw [entriesFrom] at hfrom
  rw [listNextEntry, hfrom]

/-! ### The loop -/

/-- The cursor points to an entry. -/
def OnList (l : List ℕ) (c : AggCursor) : Prop := ∃ p ∈ l, c = .entry p

theorem not_onList_listHead (l : List ℕ) : ¬ OnList l .listHead := by
  rintro ⟨p, -, hp⟩
  cases hp

/-- **A request that stays.**  More entries are left than the loop can pass, or one before the last is free.
By induction on the entries behind the cursor. -/
theorem aggPagesLoop_stays {l : List ℕ} (hnd : l.Nodup) (refCount : ℕ → ℕ) (rest : List ℕ) :
    ∀ (pre : List ℕ) (p n i : ℕ), l = pre ++ p :: rest →
      (n < rest.length + 1 ∨ ∃ j, j < rest.length ∧ refCount (i + j) = 1) →
      OnList l (aggPagesLoop l refCount n i (.entry p)).1 ∧
        ∀ c ∈ (aggPagesLoop l refCount n i (.entry p)).2.2, OnList l c := by
  induction rest with
  | nil =>
    intro pre p n i hl hroom
    have hzero : n = 0 := by
      rcases hroom with h | ⟨j, hj, -⟩
      · exact Nat.lt_one_iff.mp h
      · exact absurd hj (Nat.not_lt_zero j)
    rw [hzero, aggPagesLoop]
    exact ⟨⟨p, by rw [hl]; simp, rfl⟩, fun c hc => absurd hc List.not_mem_nil⟩
  | cons q rest ih =>
    intro pre p n i hl hroom
    have hp : OnList l (.entry p) := ⟨p, by rw [hl]; simp, rfl⟩
    have hq : OnList l (.entry q) := ⟨q, by rw [hl]; simp, rfl⟩
    cases n with
    | zero =>
      rw [aggPagesLoop]
      exact ⟨hp, fun c hc => absurd hc List.not_mem_nil⟩
    | succ n =>
      have hnext : listNextEntry l (.entry p) = .entry q := by
        rw [hl] at hnd ⊢
        exact listNextEntry_inside pre p q rest hnd
      rw [aggPagesLoop, if_neg (by simp), hnext]
      by_cases hfree : refCount i = 1
      · rw [if_pos hfree]
        refine ⟨hq, fun c hc => ?_⟩
        rw [List.mem_singleton.mp hc]
        exact hp
      · rw [if_neg hfree]
        have hroom' : n < rest.length + 1 ∨ ∃ j, j < rest.length ∧ refCount (i + 1 + j) = 1 := by
          rcases hroom with h | ⟨j, hj, hone⟩
          · exact .inl (Nat.lt_of_succ_lt_succ h)
          · cases j with
            | zero => exact absurd hone hfree
            | succ j =>
              refine .inr ⟨j, Nat.lt_of_succ_lt_succ hj, ?_⟩
              rw [Nat.add_assoc, Nat.add_comm 1 j]
              exact hone
        obtain ⟨hhead, hseen⟩ := ih (pre ++ [p]) q n (i + 1) (by rw [hl]; simp) hroom'
        refine ⟨hhead, fun c hc => ?_⟩
        rcases List.mem_cons.mp hc with rfl | hc
        · exact hp
        · exact hseen c hc

/-- **A request that strays.**  The loop comes to the last entry, and from there to the head. -/
theorem aggPagesLoop_strays {l : List ℕ} (hnd : l.Nodup) (refCount : ℕ → ℕ) (rest : List ℕ) :
    ∀ (pre : List ℕ) (p n i : ℕ), l = pre ++ p :: rest → rest.length < n →
      (∀ j, j < rest.length → refCount (i + j) ≠ 1) →
      (aggPagesLoop l refCount n i (.entry p)).1 = .listHead ∨
        .listHead ∈ (aggPagesLoop l refCount n i (.entry p)).2.2 := by
  induction rest with
  | nil =>
    intro pre p n i hl hn _
    obtain ⟨n, rfl⟩ : ∃ k, n = k + 1 := ⟨n - 1, by simp only [List.length_nil] at hn; omega⟩
    have hnext : listNextEntry l (.entry p) = .listHead := by
      rw [hl] at hnd ⊢
      exact listNextEntry_last pre p hnd
    rw [aggPagesLoop, if_neg (by simp), hnext]
    by_cases hfree : refCount i = 1
    · rw [if_pos hfree]
      exact .inl rfl
    · rw [if_neg hfree]
      cases n with
      | zero => exact .inl rfl
      | succ n =>
        -- the next iteration inspects the head
        rw [aggPagesLoop, if_neg (by simp)]
        refine .inr (List.mem_cons_of_mem _ ?_)
        split
        · exact List.mem_singleton_self _
        · exact List.mem_cons_self
  | cons q rest ih =>
    intro pre p n i hl hn hbusy
    obtain ⟨n, rfl⟩ : ∃ k, n = k + 1 := ⟨n - 1, by simp only [List.length_cons] at hn; omega⟩
    have hnext : listNextEntry l (.entry p) = .entry q := by
      rw [hl] at hnd ⊢
      exact listNextEntry_inside pre p q rest hnd
    have hfirst : ¬ refCount i = 1 := hbusy 0 (Nat.succ_pos _)
    rw [aggPagesLoop, if_neg (by simp), hnext, if_neg hfirst]
    have hrest := ih (pre ++ [p]) q n (i + 1) (by rw [hl]; simp) (Nat.lt_of_succ_lt_succ hn) (by
      intro j hj
      rw [Nat.add_assoc, Nat.add_comm 1 j]
      exact hbusy (j + 1) (Nat.succ_lt_succ hj))
    rcases hrest with h | h
    · exact .inl h
    · exact .inr (List.mem_cons_of_mem _ h)

/-- The page handed out has been inspected. -/
theorem aggPagesLoop_handed (l : List ℕ) (refCount : ℕ → ℕ) (n : ℕ) :
    ∀ (i : ℕ) (head c : AggCursor), (aggPagesLoop l refCount n i head).2.1 = some c →
      c ∈ (aggPagesLoop l refCount n i head).2.2 := by
  induction n with
  | zero =>
    intro i head c h
    cases h
  | succ n ih =>
    intro i head c h
    rw [aggPagesLoop] at h ⊢
    split at h
    · cases h
    · rename_i hnull
      rw [if_neg hnull]
      split at h
      · rename_i hfree
        rw [if_pos hfree]
        rw [← Option.some.inj h]
        exact List.mem_singleton_self _
      · rename_i hfree
        rw [if_neg hfree]
        exact List.mem_cons_of_mem _ (ih _ _ _ h)

/-! ### Runs -/

/-- The port, and every cursor whose page was inspected or handed out so far, with the list at that time. -/
structure AggPages where
  port : UlPort
  touched : List (List ℕ × AggCursor)

/-- A call, with the pages that the allocator hands out or the reference counts that are found. -/
inductive AggCall
  | updateUlAggConfig (size count features time : ℕ) (pages : List ℕ)
  | getAggPages (env : TxEnv)

/-- The pages that one update allocates are different ones. -/
def AggCall.Enabled : AggCall → Prop
  | .updateUlAggConfig _ _ _ _ pages => pages.Nodup
  | .getAggPages _ => True

/-- The cursors whose pages `rmnet_get_agg_pages` inspects and hands out. -/
def aggPagesTouched (env : TxEnv) (port : UlPort) : List AggCursor :=
  if port.egressAggParams.aggFeatures.testBit rmnetPageRecycle then
    let r := aggPagesLoop port.aggList env.pageRefCount 6 0 port.aggHead
    r.2.2 ++ r.2.1.toList
  else []

/-- The system after a call. -/
def aggPagesNext (s : AggPages) : AggCall → AggPages
  | .updateUlAggConfig size count features time pages =>
      { s with port := rmnetMapUpdateUlAggConfig size count features time pages s.port }
  | .getAggPages env =>
      { port := (rmnetGetAggPages env s.port).1
        touched := s.touched ++ (aggPagesTouched env s.port).map fun c => (s.port.aggList, c) }

/-- One call. -/
def AggPagesStep (s : AggPages) (c : AggCall) (s' : AggPages) : Prop := c.Enabled ∧ s' = aggPagesNext s c

/-- A port after `rmnet_map_tx_aggregate_init`. -/
def AggPagesInit (s : AggPages) : Prop :=
  ∃ dataFormat, s = { port := rmnetMapTxAggregateInit dataFormat, touched := [] }

/-- `agg_head` is `NULL` or an entry, and only entries were inspected or handed out. -/
structure CursorOnList (s : AggPages) : Prop where
  cursor : s.port.aggHead = .null ∨ OnList s.port.aggList s.port.aggHead
  touched : ∀ x ∈ s.touched, OnList x.1 x.2

/-- A request that recycles does not come to the last entry: more than six entries are left from the cursor on,
or one of them before the last is free. -/
def BeforeLast (s : AggPages) : AggCall → Prop
  | .updateUlAggConfig _ _ _ _ _ => True
  | .getAggPages env =>
      s.port.egressAggParams.aggFeatures.testBit rmnetPageRecycle = true →
        ∀ p, s.port.aggHead = .entry p →
          6 < (entriesFrom s.port.aggList p).length ∨
            ∃ i, i + 1 < (entriesFrom s.port.aggList p).length ∧ env.pageRefCount i = 1

/-- The invariant of a run: entries are different. -/
structure CursorInv (s : AggPages) : Prop extends CursorOnList s where
  nodup : s.port.aggList.Nodup

/-- A list of pages that has just been extended, with the cursor at its front. -/
theorem allocAggPages_list (pages : List ℕ) (port : UlPort) (hnd : (port.aggList ++ pages.take 512).Nodup) :
    (rmnetAllocAggPages pages port).aggList.Nodup ∧ ((rmnetAllocAggPages pages port).aggHead = .null ∨
      OnList (rmnetAllocAggPages pages port).aggList (rmnetAllocAggPages pages port).aggHead) := by
  rw [rmnetAllocAggPages]
  refine ⟨hnd, ?_⟩
  cases port.aggList ++ pages.take 512 with
  | nil => exact .inl rfl
  | cons p rest => exact .inr ⟨p, List.mem_cons_self, rfl⟩

/-- A new configuration drops the old list, and points the cursor to the front of the new one. -/
theorem updateUlAggConfig_list (size count features time : ℕ) {pages : List ℕ} (hnd : pages.Nodup)
    (port : UlPort) :
    let port' := rmnetMapUpdateUlAggConfig size count features time pages port
    port'.aggList.Nodup ∧ (port'.aggHead = .null ∨ OnList port'.aggList port'.aggHead) := by
  intro port'
  simp only [port', rmnetMapUpdateUlAggConfig]
  split
  · exact ⟨List.nodup_nil, .inl rfl⟩
  · split
    · exact allocAggPages_list pages _ (hnd.sublist (List.take_sublist 512 pages))
    · exact ⟨List.nodup_nil, .inl rfl⟩

/-- What a request does to list and cursor. -/
theorem getAggPages_cursor (env : TxEnv) (port : UlPort) :
    (rmnetGetAggPages env port).1.aggList = port.aggList ∧
      (rmnetGetAggPages env port).1.aggHead
        = if port.egressAggParams.aggFeatures.testBit rmnetPageRecycle then
            (aggPagesLoop port.aggList env.pageRefCount 6 0 port.aggHead).1
          else port.aggHead := by
  obtain ⟨head, reuse, alloc, hframe⟩ := rmnetGetAggPages_frame env port
  refine ⟨by rw [hframe], ?_⟩
  rw [rmnetGetAggPages]
  by_cases hrec : port.egressAggParams.aggFeatures.testBit rmnetPageRecycle = true
  · simp only [if_pos hrec]
    split
    · rfl
    · rfl
  · simp only [if_neg hrec]

theorem cursorInv_init (s : AggPages) (h : AggPagesInit s) : CursorInv s := by
  obtain ⟨dataFormat, rfl⟩ := h
  obtain ⟨hnd, hcursor⟩ := updateUlAggConfig_list (pageSize - 1) 20 0 3000000 List.nodup_nil
    { dataFormat := dataFormat, egressAggParams := ⟨0, 0, 0, 0⟩, aggSkb := none, aggState := 0,
      aggCount := 0, aggTime := {}, aggLast := {}, hrtimerArmed := false, aggWqQueued := false,
      aggSizeOrder := 0, aggList := [], aggHead := .null, ulAggReuse := 0, ulAggAlloc := 0, sent := [] }
  exact ⟨⟨hcursor, fun x hx => absurd hx List.not_mem_nil⟩, hnd⟩

/-- What a request touches while recycling is on: what the loop has inspected. -/
theorem mem_aggPagesTouched {env : TxEnv} {port : UlPort}
    (hrec : port.egressAggParams.aggFeatures.testBit rmnetPageRecycle = true) {c : AggCursor} :
    c ∈ aggPagesTouched env port ↔ c ∈ (aggPagesLoop port.aggList env.pageRefCount 6 0 port.aggHead).2.2 := by
  rw [aggPagesTouched, if_pos hrec, List.mem_append, Option.mem_toList]
  exact ⟨fun hc => hc.elim id (aggPagesLoop_handed _ _ _ _ _ _), .inl⟩

/-- A request that touches nothing: recycling is off, or there is no page. -/
theorem getAggPages_idle {s : AggPages} (h : CursorInv s) (env : TxEnv)
    (hhead : (rmnetGetAggPages env s.port).1.aggHead = s.port.aggHead) (hnone : aggPagesTouched env s.port = []) :
    CursorInv (aggPagesNext s (.getAggPages env)) := by
  obtain ⟨hlist, -⟩ := getAggPages_cursor env s.port
  rw [aggPagesNext, hnone, List.map_nil, List.append_nil]
  refine ⟨⟨?_, h.touched⟩, ?_⟩
  · rw [hhead, hlist]
    exact h.cursor
  · rw [hlist]
    exact h.nodup

section

variable {s : AggPages} {env : TxEnv} {pre rest : List ℕ} {p : ℕ}

/-- A request that recycles, by the entries behind the cursor. -/
theorem beforeLast_iff (hrec : s.port.egressAggParams.aggFeatures.testBit rmnetPageRecycle = true)
    (hentry : s.port.aggHead = .entry p) (hfrom : entriesFrom s.port.aggList p = p :: rest) :
    BeforeLast s (.getAggPages env) ↔
      6 < rest.length + 1 ∨ ∃ j, j < rest.length ∧ env.pageRefCount (0 + j) = 1 := by
  rw [BeforeLast]
  simp only [Nat.zero_add]
  constructor
  · intro hok
    have hroom := hok hrec p hentry
    rw [hfrom, List.length_cons] at hroom
    simpa using hroom
  · intro hroom _ q hq
    rw [hentry] at hq
    obtain rfl := AggCursor.entry.inj hq
    rw [hfrom, List.length_cons]
    simpa using hroom

theorem getAggPages_before (h : CursorInv s)
    (hrec : s.port.egressAggParams.aggFeatures.testBit rmnetPageRecycle = true) (hentry : s.port.aggHead = .entry p)
    (hsplit : s.port.aggList = pre ++ p :: rest)
    (hroom : 6 < rest.length + 1 ∨ ∃ j, j < rest.length ∧ env.pageRefCount (0 + j) = 1) :
    CursorInv (aggPagesNext s (.getAggPages env)) := by
  obtain ⟨hlist, hhead⟩ := getAggPages_cursor env s.port
  obtain ⟨hstay, hseen⟩ := aggPagesLoop_stays h.nodup env.pageRefCount rest pre p 6 0 hsplit hroom
  rw [if_pos hrec, hentry] at hhead
  refine ⟨⟨.inr ?_, fun x hx => ?_⟩, ?_⟩
  · show OnList (rmnetGetAggPages env s.port).1.aggList (rmnetGetAggPages env s.port).1.aggHead
    rw [hhead, hlist]
    exact hstay
  · rcases List.mem_append.mp hx with hx | hx
    · exact h.touched x hx
    · obtain ⟨c, hc, rfl⟩ := List.mem_map.mp hx
      rw [mem_aggPagesTouched hrec, hentry] at hc
      exact hseen c hc
  · show (rmnetGetAggPages env s.port).1.aggList.Nodup
    rw [hlist]
    exact h.nodup

theorem getAggPages_last (h : CursorInv s)
    (hrec : s.port.egressAggParams.aggFeatures.testBit rmnetPageRecycle = true) (hentry : s.port.aggHead = .entry p)
    (hsplit : s.port.aggList = pre ++ p :: rest)
    (hroom : ¬ (6 < rest.length + 1 ∨ ∃ j, j < rest.length ∧ env.pageRefCount (0 + j) = 1)) :
    ¬ CursorOnList (aggPagesNext s (.getAggPages env)) := by
  obtain ⟨-, hhead⟩ := getAggPages_cursor env s.port
  rw [if_pos hrec, hentry] at hhead
  obtain ⟨hshort, hbusy⟩ := not_or.mp hroom
  intro hon
  rcases aggPagesLoop_strays h.nodup env.pageRefCount rest pre p 6 0 hsplit (by omega)
    (fun j hj hone => hbusy ⟨j, hj, hone⟩) with hs | hs
  · have hcursor : (rmnetGetAggPages env s.port).1.aggHead = .null ∨
        OnList (rmnetGetAggPages env s.port).1.aggList (rmnetGetAggPages env s.port).1.aggHead := hon.cursor
    rw [hhead, hs] at hcursor
    rcases hcursor with hc | hc
    · cases hc
    · exact not_onList_listHead _ hc
  · apply not_onList_listHead s.port.aggList
    apply hon.touched (s.port.aggList, .listHead)
    apply List.mem_append_right
    apply List.mem_map_of_mem
    rw [mem_aggPagesTouched hrec, hentry]
    exact hs

end

/-- A request with the cursor on the list keeps it there exactly when it does not come to the last entry. -/
theorem getAggPages_step {s : AggPages} (h : CursorInv s) (env : TxEnv) :
    (BeforeLast s (.getAggPages env) → CursorInv (aggPagesNext s (.getAggPages env))) ∧
      (¬ BeforeLast s (.getAggPages env) → ¬ CursorOnList (aggPagesNext s (.getAggPages env))) := by
  obtain ⟨-, hhead⟩ := getAggPages_cursor env s.port
  by_cases hrec : s.port.egressAggParams.aggFeatures.testBit rmnetPageRecycle = true
  · rw [if_pos hrec] at hhead
    rcases h.cursor with hnull | ⟨p, hp, hentry⟩
    · have hloop : aggPagesLoop s.port.aggList env.pageRefCount 6 0 s.port.aggHead = (.null, none, []) := by
        rw [hnull]
        rfl
      have hnone : aggPagesTouched env s.port = [] := by
        simp only [aggPagesTouched, if_pos hrec, hloop]
        rfl
      rw [hloop, ← hnull] at hhead
      refine ⟨fun _ => getAggPages_idle h env hhead hnone, fun hbad => absurd (fun _ p hp => ?_) hbad⟩
      rw [hnull] at hp
      cases hp
    · obtain ⟨pre, rest, hsplit, hfrom⟩ := exists_split hp h.nodup
      rw [beforeLast_iff hrec hentry hfrom]
      exact ⟨getAggPages_before h hrec hentry hsplit, getAggPages_last h hrec hentry hsplit⟩
  · rw [if_neg hrec] at hhead
    have hnone : aggPagesTouched env s.port = [] := by rw [aggPagesTouched, if_neg hrec]
    exact ⟨fun _ => getAggPages_idle h env hhead hnone, fun hbad => absurd (fun h => absurd h hrec) hbad⟩

theorem aggPagesStep_keeps (s : AggPages) (c : AggCall) (s' : AggPages) (h : CursorInv s)
    (hs : AggPagesStep s c s') (hok : BeforeLast s c) : CursorInv s' := by
  obtain ⟨hen, rfl⟩ := hs
  cases c with
  | updateUlAggConfig size count features time pages =>
    obtain ⟨hnd, hcursor⟩ := updateUlAggConfig_list size count features time hen s.port
    exact ⟨⟨hcursor, h.touched⟩, hnd⟩
  | getAggPages env => exact (getAggPages_step h env).1 hok

theorem aggPagesStep_breaks (s : AggPages) (c : AggCall) (s' : AggPages) (h : CursorInv s)
    (hs : AggPagesStep s c s') (hbad : ¬ BeforeLast s c) : ¬ CursorOnList s' := by
  obtain ⟨-, rfl⟩ := hs
  cases c with
  | updateUlAggConfig size count features time pages => exact absurd trivial hbad
  | getAggPages env => exact (getAggPages_step h env).2 hbad

/-- **Exactly when the cursor stays on the list.**  Along a run of configurations and requests, every state has
the cursor on the list, and only entries inspected and handed out so far, if and only if no request that
recycles comes to the last entry. -/
theorem recycle_cursor_iff (h : List (AggPages × AggCall)) (s : AggPages)
    (hex : Exec AggPagesInit AggPagesStep h s) :
    (∀ x ∈ h.map Prod.fst ++ [s], CursorOnList x) ↔ ∀ x ∈ h, BeforeLast x.1 x.2 :=
  (hex.forall_iff cursorInv_init (fun _ hI => hI.toCursorOnList) aggPagesStep_keeps aggPagesStep_breaks).1

/-! ### A full lap -/

/-- Nobody else holds the pages. -/
def freePages : TxEnv :=
  { now := {}, nowAgg := {}, pageRefCount := fun _ => 1, devAllocPages := true, buildSkb := true }

/-- A port as it starts. -/
def lapStart : AggPages := { port := rmnetMapTxAggregateInit 0, touched := [] }

/-- Recycling is on, and two of the 512 allocations have succeeded. -/
def lapConfig : AggCall := .updateUlAggConfig 8000 20 1 3000000 [10, 11]

/-- The port with its two pages. -/
def lapTwo : AggPages := aggPagesNext lapStart lapConfig

/-- The first page is handed out. -/
def lapOne : AggPages := aggPagesNext lapTwo (.getAggPages freePages)

theorem lapOne_exec : Exec AggPagesInit AggPagesStep
    [(lapStart, lapConfig), (lapTwo, .getAggPages freePages)] lapOne := by
  have hstart : Exec AggPagesInit AggPagesStep [] lapStart := .start ⟨0, rfl⟩
  have hconfig : AggPagesStep lapStart lapConfig lapTwo :=
    ⟨(by decide : [10, 11].Nodup), rfl⟩
  exact (hstart.next hconfig).next ⟨trivial, rfl⟩

/-- The first request leaves the cursor on the second page. -/
theorem recycle_cursor_first : CursorOnList lapOne := by
  refine (recycle_cursor_iff _ _ lapOne_exec).mpr ?_ lapOne (by simp)
  intro x hx
  simp only [List.mem_cons, List.not_mem_nil, or_false] at hx
  rcases hx with rfl | rfl
  · exact trivial
  · intro _ p hp
    have hfirst : lapTwo.port.aggHead = .entry 10 := rfl
    rw [hfirst] at hp
    obtain rfl := AggCursor.entry.inj hp
    exact .inr ⟨0, by decide, rfl⟩

/-- **The cursor leaves the list.**  The second request hands out the last page and points the cursor to the
list head; the third one inspects the head as if it were a page. -/
theorem recycle_cursor_strays : ∃ h s, Exec AggPagesInit AggPagesStep h s ∧ ¬ CursorOnList s ∧
    s.port.aggHead = .listHead ∧ ([10, 11], .listHead) ∈ (aggPagesNext s (.getAggPages freePages)).touched := by
  have hstep : AggPagesStep lapOne (.getAggPages freePages) (aggPagesNext lapOne (.getAggPages freePages)) :=
    ⟨trivial, rfl⟩
  refine ⟨_, _, lapOne_exec.next hstep, fun h => ?_, rfl, by decide⟩
  rcases h.cursor with hc | hc
  · cases hc
  · exact not_onList_listHead _ hc

end Rmnet
