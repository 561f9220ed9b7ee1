import Mathlib.Data.List.Nodup
import Rmnet.Lib.Refcount
import Rmnet.Uplink.Recycle

/-!
# The pages under the aggregation buffers

An aggregation buffer is built on a page.  Pages come from `agg_list`, which keeps one reference on each of its own and
hands a page out again as soon as that is the only one, or from the allocator.  The page of a buffer is given up when
the buffer is freed: when the device below has transmitted it, or in `rmnet_map_tx_aggregate_exit`.

Configurations, passes of `rmnet_map_tx_aggregate`, flushes, QMAP commands and completions come in any order.  As long
as the cursor stays on the list, the references are counted right and no two buffers share a page
(`agg_pages_exclusive`), and after the exit every page is freed exactly once (`agg_pages_all_freed`).
-/

namespace Rmnet

open Transition Refcount

/-! ### The functions -/

/-- The aggregation part of a port, the counts of the pages it has allocated, the page under `agg_skb`, and the pages
under the buffers that the device below has not completed yet. -/
structure UlPages where
  port : UlPort
  pages : Counts
  aggPage : Option ℕ
  inFlight : List ℕ

/-- The page that `rmnet_get_agg_pages` returns.  A cursor that has left the list yields no page here. -/
def aggPageOf (env : TxEnv) (port : UlPort) (pages : Counts) : Counts × Option ℕ :=
  let r := if port.egressAggParams.aggFeatures.testBit rmnetPageRecycle then
      aggPagesLoop port.aggList env.pageRefCount 6 0 port.aggHead
    else (port.aggHead, none, [])
  match r.2.1 with
  | some (.entry p) => (pages.get p, some p)
  | some _ => (pages, none)
  | none => if env.devAllocPages then (pages.alloc, some pages.next) else (pages, none)

/-- The page of the buffer that `rmnet_map_build_skb` returns: a page without a buffer is put back. -/
def buildSkbPage (env : TxEnv) (port : UlPort) (pages : Counts) : Counts × Option ℕ :=
  match aggPageOf env port pages with
  | (pages, none) => (pages, none)
  | (pages, some p) => if env.buildSkb then (pages, some p) else (pages.put p, none)

/-- The pass calls `rmnet_map_build_skb`. -/
def opensBuffer (skb : SkBuff) (env : TxEnv) (port : UlPort) : Bool :=
  !(port.dataFormat.testBit egressFormatPriority && skb.priority ≠ 0) && port.aggSkb.isNone &&
    !txAggBypass { port with aggLast := env.now } port.aggLast skb.len

/-- The end of a critical section that builds no buffer: one that is gone is on its way, with its page. -/
def UlPages.withPort (s : UlPages) (port : UlPort) : UlPages :=
  if port.aggSkb.isSome then { s with port := port }
  else { s with port := port, aggPage := none, inFlight := s.aggPage.toList ++ s.inFlight }

/-- `rmnet_free_agg_pages`. -/
def rmnetFreeAggPages (s : UlPages) : UlPages :=
  { s with
    port := { s.port with aggList := [], aggHead := .null }
    pages := s.port.aggList.foldl Counts.put s.pages }

/-- `rmnet_map_tx_aggregate_exit`. -/
def rmnetMapTxAggregateExit (s : UlPages) : UlPages :=
  let s := { s with port := { s.port with hrtimerArmed := false, aggWqQueued := false } }
  let s :=
    if s.port.aggState = -eInProgress then
      let s :=
        if s.port.aggSkb.isSome then
          { s with
            port := { s.port with aggSkb := none, aggCount := 0, aggTime := {} }
            pages := s.aggPage.toList.foldl Counts.put s.pages
            aggPage := none }
        else s
      { s with port := { s.port with aggState := 0 } }
    else s
  rmnetFreeAggPages s

/-! ### Runs -/

/-- What can happen to a port; `allocated` is how many of the allocations of an update succeed. -/
inductive PageEvent
  | updateUlAggConfig (size count features time allocated : ℕ)
  | txAggregate (skb : SkBuff) (env : TxEnv)
  | flushTxPacket
  | txQmapCmd (qmapSkb : Bytes)
  | complete (p : ℕ)
  | exit

/-- One event; a pass that overruns its buffer does not return. -/
def pageNext (s : UlPages) : PageEvent → Option UlPages
  | .updateUlAggConfig size count features time allocated =>
      let pages := s.port.aggList.foldl Counts.put s.pages
      let port := rmnetMapUpdateUlAggConfig size count features time (List.range' pages.next allocated) s.port
      some { s with port := port, pages := pages.allocMany port.aggList.length }
  | .txAggregate skb env =>
      match txAggregateLocked skb env s.port with
      | .error _ => none
      | .ok (port, _) =>
          if opensBuffer skb env s.port then
            let r := buildSkbPage env s.port s.pages
            some { s with port := port, pages := r.1, aggPage := r.2 }
          else some (s.withPort port)
  | .flushTxPacket => some (s.withPort (flushTxPacketLocked s.port).1)
  | .txQmapCmd qmapSkb => some (s.withPort (txQmapCmdLocked qmapSkb s.port).1)
  | .complete p =>
      if p ∈ s.inFlight then some { s with inFlight := s.inFlight.erase p, pages := s.pages.put p } else none
  | .exit => some (rmnetMapTxAggregateExit s)

/-- The loop reads the counts of the pages that it comes to. -/
def ReadsCounts (s : UlPages) (env : TxEnv) : Prop :=
  ∀ i p, (listNextEntry s.port.aggList)^[i] s.port.aggHead = .entry p → env.pageRefCount i = s.pages.refs p

/-- Buffers from the network stack are coherent, and the counts that a pass reads are the ones that are there. -/
def PageEvent.Enabled (s : UlPages) : PageEvent → Prop
  | .txAggregate skb env => skb.Coherent ∧ ReadsCounts s env
  | _ => True

/-- One event as a step. -/
def PageStep (s : UlPages) (e : PageEvent) (s' : UlPages) : Prop := e.Enabled s ∧ pageNext s e = some s'

/-- A port after `rmnet_map_tx_aggregate_init`. -/
def PagesInit (s : UlPages) : Prop :=
  ∃ dataFormat, s = { port := rmnetMapTxAggregateInit dataFormat, pages := .empty, aggPage := none, inFlight := [] }

/-- A pass that asks for a page leaves the cursor on the list. -/
def StaysOnList (s : UlPages) : PageEvent → Prop
  | .txAggregate skb env => opensBuffer skb env s.port = true → BeforeLast ⟨s.port, []⟩ (.getAggPages env)
  | _ => True

/-! ### The invariant -/

/-- The pages under the buffers that exist. -/
def UlPages.buffers (s : UlPages) : List ℕ := s.aggPage.toList ++ s.inFlight

/-- The list holds one reference on each of its pages, and each buffer one on its own. -/
structure PagesInv (s : UlPages) : Prop where
  held : Held s.pages (s.port.aggList ++ s.buffers)
  nodup : s.port.aggList.Nodup
  cursor : s.port.aggHead = .null ∨ OnList s.port.aggList s.port.aggHead
  exclusive : s.buffers.Nodup
  aggPage : s.aggPage.isSome = s.port.aggSkb.isSome
  aggState : s.port.aggSkb.isSome = true → s.port.aggState = -eInProgress

/-- The page that the loop hands out has been found with one reference. -/
theorem aggPagesLoop_free (l : List ℕ) (refCount : ℕ → ℕ) (n : ℕ) :
    ∀ (i : ℕ) (head c : AggCursor), (aggPagesLoop l refCount n i head).2.1 = some c →
      ∃ j, c = (listNextEntry l)^[j] head ∧ refCount (i + j) = 1 := by
  induction n with
  | zero =>
    intro i head c h
    cases h
  | succ n ih =>
    intro i head c h
    rw [aggPagesLoop] at h
    split at h
    · cases h
    · split at h
      · rename_i hone
        exact ⟨0, (Option.some.inj h).symm, hone⟩
      · obtain ⟨j, hc, hone⟩ := ih (i + 1) _ c h
        refine ⟨j + 1, ?_, ?_⟩
        · rw [hc, Function.iterate_succ_apply]
        · rwa [← Nat.add_assoc, Nat.add_right_comm]

theorem PagesInv.cursorInv {s : UlPages} (h : PagesInv s) : CursorInv ⟨s.port, []⟩ :=
  ⟨⟨h.cursor, fun _ hx => absurd hx List.not_mem_nil⟩, h.nodup⟩

/-- **The page of a new buffer is nobody else's.**  `rmnet_get_agg_pages` recycles a page that only the list holds, or
allocates a new one. -/
theorem aggPageOf_spec {s : UlPages} (h : PagesInv s) (hnone : s.aggPage = none) {env : TxEnv}
    (hreads : ReadsCounts s env) (hstays : BeforeLast ⟨s.port, []⟩ (.getAggPages env)) :
    let r := aggPageOf env s.port s.pages
    Held r.1 (s.port.aggList ++ (r.2.toList ++ s.inFlight)) ∧ (r.2.toList ++ s.inFlight).Nodup ∧
      r.2.isSome = (rmnetGetAggPages env s.port).2 := by
  have hheld := h.held
  have hexcl := h.exclusive
  simp only [UlPages.buffers, hnone, Option.toList_none, List.nil_append] at hheld hexcl
  -- what the loop hands out is an entry of the list, and has one reference
  have hentry : ∀ c, (aggPagesLoop s.port.aggList env.pageRefCount 6 0 s.port.aggHead).2.1 = some c →
      s.port.egressAggParams.aggFeatures.testBit rmnetPageRecycle = true →
        ∃ p ∈ s.port.aggList, c = .entry p ∧ s.pages.refs p = 1 := by
    intro c hc hrec
    have hon := ((getAggPages_step h.cursorInv env).1 hstays).touched (s.port.aggList, c) (by
      refine List.mem_append_right _ (List.mem_map_of_mem ?_)
      rw [mem_aggPagesTouched hrec]
      exact aggPagesLoop_handed _ _ _ _ _ _ hc)
    obtain ⟨p, hp, rfl⟩ := hon
    obtain ⟨j, hj, hone⟩ := aggPagesLoop_free _ _ _ _ _ _ hc
    rw [Nat.zero_add] at hone
    exact ⟨p, hp, rfl, (hreads j p hj.symm).symm.trans hone⟩
  simp only [aggPageOf, rmnetGetAggPages]
  cases hr : (if s.port.egressAggParams.aggFeatures.testBit rmnetPageRecycle = true then
      aggPagesLoop s.port.aggList env.pageRefCount 6 0 s.port.aggHead else (s.port.aggHead, none, [])).2.1 with
  | some c =>
    have hrec : s.port.egressAggParams.aggFeatures.testBit rmnetPageRecycle = true := by
      by_contra hrec
      rw [if_neg hrec] at hr
      cases hr
    rw [if_pos hrec] at hr
    obtain ⟨p, hp, rfl, hone⟩ := hentry c hr hrec
    -- the list holds the one reference, so no buffer does
    have hfree : p ∉ s.inFlight := by
      have hcount := hheld.refs p
      rw [hone, List.count_append, List.count_eq_one_of_mem h.nodup hp] at hcount
      exact List.count_eq_zero.mp (by omega)
    refine ⟨?_, List.nodup_cons.mpr ⟨hfree, hexcl⟩, rfl⟩
    exact (hheld.get (List.mem_append_left _ hp)).perm List.perm_middle.symm
  | none =>
    cases env.devAllocPages with
    | false => exact ⟨hheld, hexcl, rfl⟩
    | true =>
      have hnew : s.pages.next ∉ s.inFlight := fun hmem =>
        Nat.lt_irrefl _ (hheld.lt _ (List.mem_append_right _ hmem))
      exact ⟨hheld.alloc.perm List.perm_middle.symm, List.nodup_cons.mpr ⟨hnew, hexcl⟩, rfl⟩

theorem buildSkbPage_spec {s : UlPages} (h : PagesInv s) (hnone : s.aggPage = none) {env : TxEnv}
    (hreads : ReadsCounts s env) (hstays : BeforeLast ⟨s.port, []⟩ (.getAggPages env)) :
    let r := buildSkbPage env s.port s.pages
    Held r.1 (s.port.aggList ++ (r.2.toList ++ s.inFlight)) ∧ (r.2.toList ++ s.inFlight).Nodup ∧
      r.2.isSome = (rmnetMapBuildSkb env s.port).2.isSome := by
  obtain ⟨hheld, hexcl, hsome⟩ := aggPageOf_spec h hnone hreads hstays
  unfold buildSkbPage rmnetMapBuildSkb
  generalize aggPageOf env s.port s.pages = r at hheld hexcl hsome
  rcases r with ⟨pages, _ | p⟩
  · have hno : (rmnetGetAggPages env s.port).2 = false := hsome.symm
    simp only [hno, Bool.false_and, Bool.false_eq_true, if_false]
    exact ⟨hheld, hexcl, rfl⟩
  · have hyes : (rmnetGetAggPages env s.port).2 = true := hsome.symm
    simp only [hyes, Bool.true_and]
    cases env.buildSkb with
    | true => exact ⟨hheld, hexcl, rfl⟩
    | false =>
      -- without a buffer the page is put back
      exact ⟨(hheld.perm List.perm_middle).put, (List.nodup_cons.mp hexcl).2, rfl⟩

/-! ### One event -/

theorem schedule_pages (port : UlPort) :
    (schedule port).aggList = port.aggList ∧ (schedule port).aggHead = port.aggHead := by
  unfold schedule
  split <;> exact ⟨rfl, rfl⟩

/-- Without a buffer, a packet goes out by itself, or a buffer is asked for. -/
theorem txAggOpen_pages {skb : SkBuff} {env : TxEnv} {last : Timespec64} {port port' : UlPort} {posts : List Post}
    (h : txAggOpen skb env last port = .ok (port', posts)) :
    port'.aggList = port.aggList ∧
      if txAggBypass port last skb.len then port' = port
      else port'.aggHead = (rmnetGetAggPages env port).1.aggHead ∧
        port'.aggSkb.isSome = (rmnetMapBuildSkb env port).2.isSome := by
  unfold txAggOpen at h
  by_cases hbypass : txAggBypass port last skb.len = true
  · rw [if_pos hbypass] at h ⊢
    cases h
    exact ⟨rfl, rfl⟩
  · rw [if_neg hbypass] at h ⊢
    have hlist := (getAggPages_cursor env port).1
    have hfst : (rmnetMapBuildSkb env port).1 = (rmnetGetAggPages env port).1 := by
      unfold rmnetMapBuildSkb
      simp only
      split <;> rfl
    generalize rmnetMapBuildSkb env port = r at h hfst
    rcases r with ⟨port₁, _ | agg⟩
    · cases h
      rw [← hfst] at hlist ⊢
      exact ⟨hlist, rfl, rfl⟩
    · simp only at h
      split at h
      · cases h
      · cases h
        rw [← hfst] at hlist ⊢
        refine ⟨(schedule_pages _).1.trans hlist, (schedule_pages _).2, ?_⟩
        rw [schedule_aggSkb]
        rfl

/-- Asking for a page does not read `agg_last`. -/
theorem getAggPages_aggLast (env : TxEnv) (port : UlPort) (t : Timespec64) :
    (rmnetGetAggPages env { port with aggLast := t }).1.aggHead = (rmnetGetAggPages env port).1.aggHead ∧
      (rmnetMapBuildSkb env { port with aggLast := t }).2 = (rmnetMapBuildSkb env port).2 := by
  have hget : (rmnetGetAggPages env { port with aggLast := t })
      = ({ (rmnetGetAggPages env port).1 with aggLast := t }, (rmnetGetAggPages env port).2) := by
    unfold rmnetGetAggPages
    simp only
    split <;> rfl
  refine ⟨by rw [hget], ?_⟩
  unfold rmnetMapBuildSkb
  rw [hget]
  simp only
  split <;> rfl

/-- What a critical section does to the list and its cursor, by whether it builds a buffer. -/
theorem txAggregateLocked_pages {skb : SkBuff} {env : TxEnv} {port port' : UlPort} {posts : List Post}
    (h : txAggregateLocked skb env port = .ok (port', posts)) :
    port'.aggList = port.aggList ∧
      if opensBuffer skb env port then
        port.aggSkb = none ∧ port'.aggHead = (rmnetGetAggPages env port).1.aggHead ∧
          port'.aggSkb.isSome = (rmnetMapBuildSkb env port).2.isSome
      else port'.aggHead = port.aggHead ∧ (port.aggSkb = none → port'.aggSkb = none) := by
  unfold txAggregateLocked at h
  unfold opensBuffer
  simp only at h
  by_cases hprio : (port.dataFormat.testBit egressFormatPriority && decide (skb.priority ≠ 0)) = true
  · rw [if_pos hprio] at h
    simp only [hprio, Bool.not_true, Bool.false_and, Bool.false_eq_true, if_false]
    cases hagg : port.aggSkb with
    | none =>
      simp only [rmnetMapSendAggSkb, hagg] at h
      cases h
      exact ⟨rfl, rfl, fun _ => rfl⟩
    | some agg =>
      simp only [rmnetMapSendAggSkb, hagg] at h
      cases h
      exact ⟨rfl, rfl, fun hno => by cases hno⟩
  · rw [if_neg hprio] at h
    simp only [Bool.not_eq_true] at hprio
    simp only [hprio, Bool.not_false, Bool.true_and]
    cases hagg : port.aggSkb with
    | none =>
      simp only [hagg] at h
      simp only [Option.isNone_none, Bool.true_and]
      obtain ⟨hlist, hrest⟩ := txAggOpen_pages h
      refine ⟨hlist, ?_⟩
      -- the new clock reading does not matter to the page
      have hpage := getAggPages_aggLast env port env.now
      simp only [hagg] at hpage
      split at hrest
      · rename_i hbypass
        simp only [hbypass, Bool.not_true, Bool.false_eq_true, if_false]
        exact ⟨hrest ▸ rfl, fun _ => hrest ▸ rfl⟩
      · rename_i hbypass
        simp only [Bool.not_eq_true] at hbypass
        simp only [hbypass, Bool.not_false, if_true, true_and]
        exact ⟨hrest.1.trans hpage.1, hrest.2.trans (congrArg _ hpage.2)⟩
    | some agg =>
      simp only [hagg] at h
      simp only [Option.isNone_some, Bool.false_and, Bool.false_eq_true, if_false]
      split at h
      · simp only [rmnetMapSendAggSkb] at h
        cases h
        exact ⟨rfl, rfl, fun hno => by cases hno⟩
      · split at h
        · cases h
        · cases h
          exact ⟨(schedule_pages _).1, (schedule_pages _).2, fun hno => by cases hno⟩

/-- A critical section that builds no buffer and leaves list and cursor alone. -/
theorem PagesInv.withPort {s : UlPages} (h : PagesInv s) {port : UlPort} (hlist : port.aggList = s.port.aggList)
    (hhead : port.aggHead = s.port.aggHead) (hskb : port.aggSkb.isSome = true → s.port.aggSkb.isSome = true)
    (hstate : port.aggSkb.isSome = true → port.aggState = -eInProgress) : PagesInv (s.withPort port) := by
  unfold UlPages.withPort
  split
  · rename_i hsome
    refine ⟨?_, by rw [hlist]; exact h.nodup, by rw [hlist, hhead]; exact h.cursor, h.exclusive, ?_, hstate⟩
    · rw [hlist]
      exact h.held
    · rw [h.aggPage, hskb hsome, hsome]
  · rename_i hnone
    refine ⟨?_, by rw [hlist]; exact h.nodup, by rw [hlist, hhead]; exact h.cursor, h.exclusive, ?_, hstate⟩
    · rw [hlist]
      exact h.held
    · simpa using hnone

theorem PagesInv.txAggregate {s s' : UlPages} (h : PagesInv s) {skb : SkBuff} {env : TxEnv}
    (hen : (PageEvent.txAggregate skb env).Enabled s) (hstays : StaysOnList s (.txAggregate skb env))
    (hnext : pageNext s (.txAggregate skb env) = some s') : PagesInv s' := by
  obtain ⟨hc, hreads⟩ := hen
  simp only [pageNext] at hnext
  split at hnext
  · cases hnext
  · rename_i port posts hpass
    obtain ⟨hlist, hrest⟩ := txAggregateLocked_pages hpass
    have hcases := txAggregateLocked_cases hc hpass
    by_cases hopen : opensBuffer skb env s.port = true
    · rw [if_pos hopen] at hnext hrest
      obtain rfl := Option.some.inj hnext
      obtain ⟨hnone, hhead, hsome⟩ := hrest
      have hpage : s.aggPage = none := by
        rw [← Option.not_isSome_iff_eq_none, h.aggPage, hnone]
        decide
      have hstay := hstays hopen
      obtain ⟨hheld, hexcl, hbuilt⟩ := buildSkbPage_spec h hpage hreads hstay
      have hcursor := ((getAggPages_step h.cursorInv env).1 hstay).cursor
      rw [aggPagesNext] at hcursor
      simp only [(getAggPages_cursor env s.port).1, ← hhead] at hcursor
      refine ⟨?_, by rw [hlist]; exact h.nodup, by rw [hlist]; exact hcursor, hexcl, hbuilt.trans hsome.symm, ?_⟩
      · rw [hlist]
        exact hheld
      · cases hcases with
        | sendFirst agg rest hs =>
          rw [hnone] at hs
          cases hs
        | direct _ _ hs =>
          rw [hs]
          intro hno
          cases hno
        | opened agg _ hsch => exact fun _ => hsch.aggState
        | appended agg agg' hs =>
          rw [hnone] at hs
          cases hs
    · rw [if_neg hopen] at hnext hrest
      obtain rfl := Option.some.inj hnext
      refine h.withPort hlist hrest.1 (fun hsome => ?_) ?_
      · by_contra hno
        rw [hrest.2 (by simpa using hno)] at hsome
        cases hsome
      · cases hcases with
        | sendFirst agg rest _ hemp =>
          rw [hemp.aggSkb]
          intro hno
          cases hno
        | direct _ _ hs =>
          rw [hs]
          intro hno
          cases hno
        | opened agg _ hsch => exact fun _ => hsch.aggState
        | appended agg agg' _ hsch => exact fun _ => hsch.aggState

theorem PagesInv.complete {s : UlPages} (h : PagesInv s) {p : ℕ} (hp : p ∈ s.inFlight) :
    PagesInv { s with inFlight := s.inFlight.erase p, pages := s.pages.put p } where
  held := by
    refine Held.put (h.held.perm ?_)
    have hbuf : s.buffers.Perm (p :: (s.aggPage.toList ++ s.inFlight.erase p)) :=
      ((List.perm_cons_erase hp).append_left _).trans List.perm_middle
    exact (hbuf.append_left _).trans List.perm_middle
  nodup := h.nodup
  cursor := h.cursor
  exclusive := h.exclusive.sublist ((List.erase_sublist).append_left _)
  aggPage := h.aggPage
  aggState := h.aggState

/-- An update leaves the buffer alone, and its list is of pages that were allocated for it, in order. -/
theorem updateUlAggConfig_pages (size count features time first allocated : ℕ) (port : UlPort) :
    let port' := rmnetMapUpdateUlAggConfig size count features time (List.range' first allocated) port
    port'.aggSkb = port.aggSkb ∧ port'.aggState = port.aggState ∧
      port'.aggList = List.range' first port'.aggList.length := by
  have htake : (List.range' first allocated).take 512 = List.range' first (min 512 allocated) := by
    rcases Nat.le_total allocated 512 with hle | hle
    · rw [List.take_range'_of_length_le hle, Nat.min_eq_right hle]
    · rw [List.take_range'_of_length_ge hle, Nat.min_eq_left hle]
  intro port'
  simp only [port', rmnetMapUpdateUlAggConfig]
  split
  · exact ⟨rfl, rfl, rfl⟩
  · split
    · simp only [rmnetAllocAggPages, List.nil_append, htake, List.length_range', and_self]
    · exact ⟨rfl, rfl, rfl⟩

theorem PagesInv.update {s : UlPages} (h : PagesInv s) (size count features time allocated : ℕ) {s' : UlPages}
    (hnext : pageNext s (.updateUlAggConfig size count features time allocated) = some s') : PagesInv s' := by
  obtain rfl := Option.some.inj hnext
  have hput : Held (s.port.aggList.foldl Counts.put s.pages) s.buffers := Held.putAll s.port.aggList h.held
  generalize s.port.aggList.foldl Counts.put s.pages = pages at hput
  obtain ⟨hnd, hcursor⟩ := updateUlAggConfig_list size count features time
    (List.nodup_range' : (List.range' pages.next allocated).Nodup) s.port
  obtain ⟨hskb, hstate, hlist⟩ := updateUlAggConfig_pages size count features time pages.next allocated s.port
  refine ⟨?_, hnd, hcursor, h.exclusive, by rw [hskb]; exact h.aggPage, by rw [hskb, hstate]; exact h.aggState⟩
  show Held (pages.allocMany _) (_ ++ s.buffers)
  rw [hlist, List.length_range']
  exact hput.allocMany _

/-- The exit frees the buffer that is being filled, and gives up the pages of the list. -/
theorem PagesInv.exit {s : UlPages} (h : PagesInv s) :
    PagesInv (rmnetMapTxAggregateExit s) ∧ (rmnetMapTxAggregateExit s).port.aggList = [] ∧
      (rmnetMapTxAggregateExit s).aggPage = none ∧ (rmnetMapTxAggregateExit s).inFlight = s.inFlight := by
  have hsuffix : s.inFlight.Nodup := (List.nodup_append.mp h.exclusive).2.1
  -- the pages of the list are put back last
  have hfree : ∀ pages : Counts, Held pages (s.port.aggList ++ s.inFlight) →
      Held (s.port.aggList.foldl Counts.put pages) ([] ++ ([] ++ s.inFlight)) := fun pages hp => hp.putAll _
  unfold rmnetMapTxAggregateExit rmnetFreeAggPages
  simp only
  cases hskb : s.port.aggSkb with
  | some agg =>
    have hsome : s.port.aggSkb.isSome = true := by rw [hskb]; rfl
    simp only [h.aggState hsome, if_true, Option.isSome_some]
    obtain ⟨p, hp⟩ := Option.isSome_iff_exists.mp (h.aggPage.trans hsome)
    have hheld := h.held
    rw [UlPages.buffers, hp] at hheld
    refine ⟨⟨?_, List.nodup_nil, .inl rfl, hsuffix, rfl, fun hno => by cases hno⟩, trivial, trivial, trivial⟩
    refine hfree _ ?_
    rw [hp]
    exact (hheld.perm List.perm_middle).put
  | none =>
    have hpage : s.aggPage = none := by
      rw [← Option.not_isSome_iff_eq_none, h.aggPage, hskb]
      decide
    have hheld := h.held
    rw [UlPages.buffers, hpage] at hheld
    simp only [Option.isSome_none, Bool.false_eq_true, if_false]
    have hinv : ∀ state : ℤ, PagesInv { s with
        port := { s.port with
          hrtimerArmed := false, aggWqQueued := false, aggSkb := none, aggState := state, aggList := [],
          aggHead := .null }
        pages := s.port.aggList.foldl Counts.put s.pages } := by
      intro state
      refine ⟨?_, List.nodup_nil, .inl rfl, h.exclusive, by rw [hpage]; rfl, fun hno => by cases hno⟩
      show Held _ ([] ++ (s.aggPage.toList ++ s.inFlight))
      rw [hpage]
      exact hfree _ hheld
    split
    · exact ⟨hinv 0, trivial, hpage, rfl⟩
    · exact ⟨hinv _, trivial, hpage, rfl⟩

/-- **One event keeps the invariant.** -/
theorem pageStep_inv {s s' : UlPages} {e : PageEvent} (h : PagesInv s) (hstep : PageStep s e s')
    (hok : StaysOnList s e) : PagesInv s' := by
  obtain ⟨hen, hnext⟩ := hstep
  cases e with
  | updateUlAggConfig size count features time allocated => exact h.update size count features time allocated hnext
  | txAggregate skb env => exact h.txAggregate hen hok hnext
  | flushTxPacket =>
    obtain rfl := Option.some.inj hnext
    unfold flushTxPacketLocked
    split
    · split
      · exact h.withPort rfl rfl (fun hno => by cases hno) fun hno => by cases hno
      · rename_i hnone
        refine h.withPort rfl rfl (fun hsome => hsome) fun hsome => ?_
        rw [hnone] at hsome
        cases hsome
    · exact h.withPort rfl rfl (fun hsome => hsome) h.aggState
  | txQmapCmd qmapSkb =>
    obtain rfl := Option.some.inj hnext
    unfold txQmapCmdLocked
    split
    · split
      · exact h.withPort rfl rfl (fun hno => by cases hno) fun hno => by cases hno
      · exact h.withPort rfl rfl (fun hsome => hsome) h.aggState
    · exact h.withPort rfl rfl (fun hsome => hsome) h.aggState
  | complete p =>
    simp only [pageNext] at hnext
    split at hnext
    · rename_i hp
      obtain rfl := Option.some.inj hnext
      exact h.complete hp
    · cases hnext
  | exit =>
    obtain rfl := Option.some.inj hnext
    exact h.exit.1

/-- A port starts without pages and without a buffer. -/
theorem aggregateInit_empty (dataFormat : ℕ) :
    let port := rmnetMapTxAggregateInit dataFormat
    port.aggList = [] ∧ port.aggHead = .null ∧ port.aggSkb = none := by
  simp only [rmnetMapTxAggregateInit, rmnetMapUpdateUlAggConfig]
  rw [if_pos (by decide)]
  exact ⟨rfl, rfl, rfl⟩

theorem pagesInv_init {s : UlPages} (hs : PagesInit s) : PagesInv s := by
  obtain ⟨dataFormat, rfl⟩ := hs
  obtain ⟨hlist, hhead, hskb⟩ := aggregateInit_empty dataFormat
  generalize rmnetMapTxAggregateInit dataFormat = port at hlist hhead hskb
  refine ⟨?_, by rw [hlist]; exact List.nodup_nil, .inl hhead, List.nodup_nil, by rw [hskb]; rfl, ?_⟩
  · rw [hlist]
    exact held_empty
  · rw [hskb]
    intro hno
    cases hno

/-! ### Every run -/

theorem pagesRun_inv {h : List (UlPages × PageEvent)} {s : UlPages} (hex : Exec PagesInit PageStep h s)
    (hok : ∀ x ∈ h, StaysOnList x.1 x.2) : ∀ s' ∈ h.map Prod.fst ++ [s], PagesInv s' :=
  hex.invariant (fun _ hs => pagesInv_init hs) (fun s e _ hI hs (hk : StaysOnList s e) => pageStep_inv hI hs hk) hok

/-- What holds of the pages in every state. -/
structure PagesExclusive (s : UlPages) : Prop where
  /-- No two buffers are built on one page. -/
  exclusive : s.buffers.Nodup
  /-- There is a page under a buffer exactly while there is a buffer. -/
  aggPage : s.aggPage.isSome = s.port.aggSkb.isSome
  /-- A page is referenced once by the list, if it is on it, and once by each buffer. -/
  refs : ∀ p, s.pages.refs p = s.port.aggList.count p + s.buffers.count p
  /-- Exactly the pages without a reference have been freed, once. -/
  freed : ∀ p, p ∈ s.pages.freed ↔ p < s.pages.next ∧ s.pages.refs p = 0
  once : s.pages.freed.Nodup

theorem PagesInv.pagesExclusive {s : UlPages} (h : PagesInv s) : PagesExclusive s where
  exclusive := h.exclusive
  aggPage := h.aggPage
  refs := fun p => by rw [h.held.refs, List.count_append]
  freed := fun p => by rw [h.held.freed, h.held.refs, List.count_eq_zero]
  once := h.held.once

/-- **No two aggregation buffers share a page, and the references are counted right.**  In every state of every run
of configurations, passes, flushes, QMAP commands, completions and exits in which no pass that asks for a page comes
to the last entry of the list. -/
theorem agg_pages_exclusive {h : List (UlPages × PageEvent)} {s : UlPages} (hex : Exec PagesInit PageStep h s)
    (hok : ∀ x ∈ h, StaysOnList x.1 x.2) : ∀ s' ∈ h.map Prod.fst ++ [s], PagesExclusive s' :=
  fun s' hs' => (pagesRun_inv hex hok s' hs').pagesExclusive

/-- The completions of some buffers, in order. -/
def completeAll (s : UlPages) (ps : List ℕ) : Option UlPages := runList pageNext s (ps.map PageEvent.complete)

/-- Completions in any order give up the pages in flight and do nothing else. -/
theorem completeAll_inv (ps : List ℕ) : ∀ {s : UlPages}, PagesInv s → s.inFlight.Perm ps →
    ∃ s', completeAll s ps = some s' ∧ PagesInv s' ∧ s'.inFlight = [] ∧ s'.port = s.port ∧ s'.aggPage = s.aggPage ∧
      s'.pages.next = s.pages.next := by
  induction ps with
  | nil => exact fun {s} h hp => ⟨s, rfl, h, hp.eq_nil, rfl, rfl, rfl⟩
  | cons p ps ih =>
    intro s h hp
    have hmem : p ∈ s.inFlight := hp.mem_iff.mpr List.mem_cons_self
    have hrest : (s.inFlight.erase p).Perm ps := by
      have herase := hp.erase p
      rwa [List.erase_cons_head] at herase
    obtain ⟨s', hrun, h', hnil, hport, hpage, hnext⟩ := ih (h.complete hmem) hrest
    refine ⟨s', ?_, h', hnil, hport, hpage, hnext⟩
    rw [completeAll, List.map_cons, runList]
    simp only [pageNext, if_pos hmem, Option.bind_some]
    exact hrun

/-- **After the exit every page is freed exactly once.**  From any state of such a run: once
`rmnet_map_tx_aggregate_exit` has returned and the buffers still in flight have completed, in whatever order, each page
that was ever allocated has been freed, once. -/
theorem agg_pages_all_freed {h : List (UlPages × PageEvent)} {s : UlPages} (hex : Exec PagesInit PageStep h s)
    (hok : ∀ x ∈ h, StaysOnList x.1 x.2) (ps : List ℕ) (hps : s.inFlight.Perm ps) :
    ∃ s', completeAll (rmnetMapTxAggregateExit s) ps = some s' ∧
      s'.pages.freed.Perm (List.range s'.pages.next) ∧ ∀ p, s'.pages.refs p = 0 := by
  obtain ⟨hexit, hlist, hpage, hflight⟩ := (pagesRun_inv hex hok s (by simp)).exit
  obtain ⟨s', hrun, h', hnil, hport, hpage', -⟩ := completeAll_inv ps hexit (hflight ▸ hps)
  have hheld := h'.held
  rw [UlPages.buffers, hport, hlist, hpage', hpage, hnil] at hheld
  exact ⟨s', hrun, hheld.free_of_nil⟩

/-! ### Three pages -/

/-- The port after an event that can happen. -/
def UlPages.after (s : UlPages) (e : PageEvent) : UlPages := (pageNext s e).getD s

theorem pages_after_step {s : UlPages} {e : PageEvent} (hen : e.Enabled s) (h : (pageNext s e).isSome = true) :
    PageStep s e (s.after e) := by
  obtain ⟨s', hs'⟩ := Option.isSome_iff_exists.mp h
  exact ⟨hen, by rw [UlPages.after, hs', Option.getD_some]⟩

/-- Pages that the cursor comes to are on the list. -/
theorem listNextEntry_mem {l : List ℕ} {c : AggCursor} {p : ℕ} (h : listNextEntry l c = .entry p) : p ∈ l := by
  unfold listNextEntry at h
  split at h
  · rename_i q
    split at h
    · rename_i heq
      have hmem : p ∈ l.dropWhile (· ≠ q) := by
        rw [heq, ← AggCursor.entry.inj h]
        simp
      exact (List.dropWhile_suffix _).subset hmem
    · cases h
  · split at h
    · cases h
    · obtain rfl := AggCursor.entry.inj h
      exact List.mem_cons_self

/-- A port without pages. -/
def noPages : UlPages :=
  { port := rmnetMapTxAggregateInit 0, pages := .empty, aggPage := none, inFlight := [] }

/-- Recycling is on, and three of the 512 allocations succeed. -/
def threePages : PageEvent := .updateUlAggConfig 8000 20 1 3000000 3

/-- A packet of three bytes, while nobody else holds a page. -/
def threeBytesPass : PageEvent := .txAggregate { linear := [1, 2, 3], len := 3 } freePages

theorem threePages_exec : Exec PagesInit PageStep [(noPages, threePages)] (noPages.after threePages) :=
  (Exec.start ⟨0, rfl⟩).next (pages_after_step trivial rfl)

theorem threeBytes_enabled : threeBytesPass.Enabled (noPages.after threePages) := by
  refine ⟨⟨rfl, rfl, by decide⟩, fun i p hp => ?_⟩
  have hmem : p ∈ [0, 1, 2] := by
    cases i with
    | zero =>
      obtain rfl := AggCursor.entry.inj (show AggCursor.entry 0 = .entry p from hp)
      decide
    | succ i =>
      rw [Function.iterate_succ_apply'] at hp
      exact listNextEntry_mem hp
  simp only [List.mem_cons, List.not_mem_nil, or_false] at hmem
  rcases hmem with rfl | rfl | rfl
  all_goals rfl

theorem bufferOpen_exec : Exec PagesInit PageStep
    [(noPages, threePages), (noPages.after threePages, threeBytesPass)]
    ((noPages.after threePages).after threeBytesPass) :=
  threePages_exec.next (pages_after_step threeBytes_enabled rfl)

/-- The cursor stays on the list of the three pages. -/
theorem bufferOpen_stays : ∀ x ∈ [(noPages, threePages), (noPages.after threePages, threeBytesPass)],
    StaysOnList x.1 x.2 := by
  intro x hx
  simp only [List.mem_cons, List.not_mem_nil, or_false] at hx
  rcases hx with rfl | rfl
  · trivial
  · intro _ _ p hp
    obtain rfl := AggCursor.entry.inj (show AggCursor.entry 0 = .entry p from hp)
    exact .inr ⟨0, by decide, rfl⟩

/-- The buffer is built on the first page, which then has two references. -/
theorem agg_pages_exclusive_open :
    ∃ h s, Exec PagesInit PageStep h s ∧ s.aggPage = some 0 ∧ s.port.aggList = [0, 1, 2] ∧ s.pages.refs 0 = 2 ∧
      ∀ s' ∈ h.map Prod.fst ++ [s], PagesExclusive s' :=
  ⟨_, _, bufferOpen_exec, rfl, rfl, rfl, agg_pages_exclusive bufferOpen_exec bufferOpen_stays⟩

/-- The exit comes while the buffer is being filled: its page and the other two are freed. -/
theorem agg_pages_all_freed_open :
    ∃ s, s.aggPage = some 0 ∧ ∃ s', completeAll (rmnetMapTxAggregateExit s) [] = some s' ∧
      s'.pages.freed.Perm (List.range s'.pages.next) ∧ ∀ p, s'.pages.refs p = 0 :=
  ⟨_, rfl, agg_pages_all_freed bufferOpen_exec bufferOpen_stays [] (List.Perm.refl _)⟩

end Rmnet
