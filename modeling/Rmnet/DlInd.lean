import Mathlib.Data.List.Sort
import Rmnet.Errno
import Rmnet.Lib.Transition

/-!
# Handlers of downlink markers

Modules that want to hear of downlink markers register a `struct rmnet_map_dl_ind` on `dl_list` of a port;
a marker is handed to the registered handlers one after the other.  The list is a circular one of the kernel:
behind its last entry comes its head, and the walk of `rmnet_map_dl_ind_register` reads the priority of the
next entry without asking whether that is the head.  `atHead` is the byte which it finds there.

* `registerWalk_eq` — the walk is sorted insertion, except that it may pass the last entry and link nothing.
* `dl_ind_iff` — when the list is complete and sorted throughout a run.
-/

namespace Rmnet

open Transition

/-! ### Data -/

/-- `struct rmnet_map_dl_ind`: its address, its priority and its two handlers, which may be `NULL`. -/
structure RmnetMapDlInd where
  addr : ℕ
  priority : ℕ
  dlHdrHandlerV2 : Option ℕ
  dlTrlHandlerV2 : Option ℕ
  deriving DecidableEq, Repr

/-- The part of `struct rmnet_port` that holds the handlers. -/
structure DlPort where
  dlList : List RmnetMapDlInd
  deriving DecidableEq, Repr

/-- The order of the list. -/
def RmnetMapDlInd.Before (a b : RmnetMapDlInd) : Prop := a.priority ≤ b.priority

instance : DecidableRel RmnetMapDlInd.Before := fun a b => Nat.decLe a.priority b.priority

instance : Std.Total RmnetMapDlInd.Before := ⟨fun a b => Nat.le_total a.priority b.priority⟩

instance : IsTrans RmnetMapDlInd RmnetMapDlInd.Before := ⟨fun _ _ _ => Nat.le_trans⟩

/-! ### The code -/

/-- `rmnet_map_cmd_init`. -/
def rmnetMapCmdInit : DlPort := { dlList := [] }

/-- The priority read through `list.next` of an entry with `rest` behind it. -/
def nextPriority (atHead : ℕ) : List RmnetMapDlInd → ℕ
  | [] => atHead
  | it :: _ => it.priority

/-- The loop of `rmnet_map_dl_ind_register`.  `list.next` of a linked entry is never `NULL`. -/
def registerWalk (atHead : ℕ) (dlInd : RmnetMapDlInd) : List RmnetMapDlInd → List RmnetMapDlInd
  | [] => []
  | it :: rest =>
      if it.priority < dlInd.priority then
        if dlInd.priority < nextPriority atHead rest then it :: dlInd :: rest
        else it :: registerWalk atHead dlInd rest
      else dlInd :: it :: rest

/-- The argument check of `rmnet_map_dl_ind_register`. -/
def RmnetMapDlInd.Valid (dlInd : RmnetMapDlInd) : Prop :=
  dlInd.dlHdrHandlerV2 ≠ none ∧ dlInd.dlTrlHandlerV2 ≠ none

instance (dlInd : RmnetMapDlInd) : Decidable dlInd.Valid :=
  inferInstanceAs (Decidable (dlInd.dlHdrHandlerV2 ≠ none ∧ dlInd.dlTrlHandlerV2 ≠ none))

/-- `rmnet_map_dl_ind_register`. -/
def rmnetMapDlIndRegister (atHead : ℕ) (port : DlPort) : Option RmnetMapDlInd → DlPort × ℤ
  | none => (port, -einval)
  | some dlInd =>
      if dlInd.Valid then
        if port.dlList = [] then ({ dlList := [dlInd] }, 0)
        else ({ dlList := registerWalk atHead dlInd port.dlList }, 0)
      else (port, -einval)

/-- `rmnet_map_dl_ind_deregister`, which knows a handler by its address. -/
def rmnetMapDlIndDeregister (port : DlPort) : Option ℕ → DlPort × ℤ
  | none => (port, -einval)
  | some addr => ({ dlList := port.dlList.eraseP fun tmp => tmp.addr = addr }, 0)

/-- `rmnet_map_dl_hdr_notify_v2`: the handlers called, in order. -/
def rmnetMapDlHdrNotifyV2 (port : DlPort) : List (Option ℕ) := port.dlList.map RmnetMapDlInd.dlHdrHandlerV2

/-- `rmnet_map_dl_trl_notify_v2`: the handlers called, in order. -/
def rmnetMapDlTrlNotifyV2 (port : DlPort) : List (Option ℕ) := port.dlList.map RmnetMapDlInd.dlTrlHandlerV2

/-! ### The walk -/

/-- The walk comes to the head without having linked the handler. -/
def PassesHead (atHead : ℕ) (dlInd : RmnetMapDlInd) (l : List RmnetMapDlInd) : Prop :=
  (∀ it ∈ l, it.priority < dlInd.priority) ∧ atHead ≤ dlInd.priority

/-- **The walk is sorted insertion**, unless it passes the head: then it changes nothing. -/
theorem registerWalk_eq (atHead : ℕ) (dlInd : RmnetMapDlInd) (l : List RmnetMapDlInd) (hne : l ≠ []) :
    (PassesHead atHead dlInd l → registerWalk atHead dlInd l = l) ∧
      (¬ PassesHead atHead dlInd l →
        registerWalk atHead dlInd l = l.orderedInsert RmnetMapDlInd.Before dlInd) := by
  induction l with
  | nil => exact absurd rfl hne
  | cons it rest ih =>
    by_cases hit : it.priority < dlInd.priority
    · have hnot : ¬ dlInd.Before it := Nat.not_le.mpr hit
      rw [registerWalk, if_pos hit, List.orderedInsert_of_not_le _ _ hnot]
      cases rest with
      | nil =>
        -- the last entry: the next one is the head
        have hpass : PassesHead atHead dlInd [it] ↔ ¬ dlInd.priority < atHead := by
          constructor
          · intro h
            exact Nat.not_lt.mpr h.2
          · intro h
            exact ⟨fun x hx => (List.mem_singleton.mp hx) ▸ hit, Nat.not_lt.mp h⟩
        rw [nextPriority, registerWalk]
        constructor
        · intro h
          rw [if_neg (hpass.mp h)]
        · intro h
          rw [if_pos (not_not.mp fun hno => h (hpass.mpr hno)), List.orderedInsert_nil]
      | cons next rest =>
        obtain ⟨hgone, hkept⟩ := ih (List.cons_ne_nil next rest)
        have hpass : PassesHead atHead dlInd (it :: next :: rest) ↔ PassesHead atHead dlInd (next :: rest) := by
          constructor
          · intro h
            exact ⟨fun x hx => h.1 x (List.mem_cons_of_mem _ hx), h.2⟩
          · intro h
            refine ⟨fun x hx => ?_, h.2⟩
            rcases List.mem_cons.mp hx with rfl | hx
            · exact hit
            · exact h.1 x hx
        rw [nextPriority, hpass]
        constructor
        · intro h
          have hlt := h.1 next List.mem_cons_self
          rw [if_neg (Nat.not_lt.mpr (Nat.le_of_lt hlt)), hgone h]
        · intro h
          by_cases hnext : dlInd.priority < next.priority
          · have hle : dlInd.Before next := Nat.le_of_lt hnext
            rw [if_pos hnext, List.orderedInsert_cons_of_le _ _ hle]
          · rw [if_neg hnext, hkept h]
    · have hle : dlInd.Before it := Nat.not_lt.mp hit
      rw [registerWalk, if_neg hit, List.orderedInsert_cons_of_le _ _ hle]
      constructor
      · intro h
        exact absurd (h.1 it List.mem_cons_self) hit
      · intro _
        rfl

/-! ### Runs -/

/-- The port, and the handlers registered with return value 0 and not deregistered since. -/
structure DlSys where
  port : DlPort
  registered : List RmnetMapDlInd

/-- A call, with the byte found at the head. -/
inductive DlCall
  | register (atHead : ℕ) (dlInd : Option RmnetMapDlInd)
  | deregister (addr : Option ℕ)

/-- Clients register a handler that is not registered. -/
def DlCall.Enabled (s : DlSys) : DlCall → Prop
  | .register _ (some dlInd) => ∀ x ∈ s.registered, x.addr ≠ dlInd.addr
  | _ => True

/-- The system after a call. -/
def dlNext (s : DlSys) : DlCall → DlSys
  | .register atHead dlInd =>
      let r := rmnetMapDlIndRegister atHead s.port dlInd
      { port := r.1, registered := if r.2 = 0 then dlInd.toList ++ s.registered else s.registered }
  | .deregister addr =>
      { port := (rmnetMapDlIndDeregister s.port addr).1
        registered := s.registered.filter fun x => addr ≠ some x.addr }

/-- One call. -/
def DlStep (s : DlSys) (c : DlCall) (s' : DlSys) : Prop := c.Enabled s ∧ s' = dlNext s c

/-- A port after `rmnet_map_cmd_init`. -/
def DlInit (s : DlSys) : Prop := s = { port := rmnetMapCmdInit, registered := [] }

/-- The list holds the registered handlers, each once, in ascending order. -/
structure SortedComplete (s : DlSys) : Prop where
  complete : s.port.dlList.Perm s.registered
  once : (s.port.dlList.map RmnetMapDlInd.addr).Nodup
  sorted : s.port.dlList.Pairwise RmnetMapDlInd.Before

/-- The call does not pass the head: a valid handler finds the list empty, or a handler of its priority or a
higher one on it, or a greater byte at the head. -/
def StopsBeforeHead (s : DlSys) : DlCall → Prop
  | .register atHead (some dlInd) =>
      dlInd.Valid → s.port.dlList = [] ∨ (∃ it ∈ s.port.dlList, dlInd.priority ≤ it.priority) ∨
        dlInd.priority < atHead
  | _ => True

theorem not_passesHead_iff (atHead : ℕ) (dlInd : RmnetMapDlInd) (l : List RmnetMapDlInd) :
    ¬ PassesHead atHead dlInd l ↔ (∃ it ∈ l, dlInd.priority ≤ it.priority) ∨ dlInd.priority < atHead := by
  rw [PassesHead, not_and_or, Nat.not_le]
  simp only [not_forall, Nat.not_lt, exists_prop]

/-- What a registration does: refuse, insert, or pass the head. -/
theorem register_cases (s : DlSys) (atHead : ℕ) (dlInd : RmnetMapDlInd) :
    (¬ dlInd.Valid ∧ dlNext s (.register atHead (some dlInd)) = s) ∨
      (dlInd.Valid ∧ StopsBeforeHead s (.register atHead (some dlInd)) ∧
        dlNext s (.register atHead (some dlInd))
          = { port := { dlList := s.port.dlList.orderedInsert RmnetMapDlInd.Before dlInd }
              registered := dlInd :: s.registered }) ∨
      (¬ StopsBeforeHead s (.register atHead (some dlInd)) ∧
        dlNext s (.register atHead (some dlInd))
          = { port := s.port, registered := dlInd :: s.registered }) := by
  rw [dlNext, rmnetMapDlIndRegister, StopsBeforeHead]
  by_cases hv : dlInd.Valid
  · rw [if_pos hv]
    by_cases hnil : s.port.dlList = []
    · rw [if_pos hnil]
      refine .inr (.inl ⟨hv, fun _ => .inl hnil, ?_⟩)
      rw [hnil]
      rfl
    · rw [if_neg hnil]
      obtain ⟨hgone, hkept⟩ := registerWalk_eq atHead dlInd s.port.dlList hnil
      by_cases hpass : PassesHead atHead dlInd s.port.dlList
      · refine .inr (.inr ⟨fun h => ?_, ?_⟩)
        · exact (not_passesHead_iff _ _ _).mpr ((h hv).resolve_left hnil) hpass
        · rw [hgone hpass]
          rfl
      · refine .inr (.inl ⟨hv, fun _ => .inr ((not_passesHead_iff _ _ _).mp hpass), ?_⟩)
        rw [hkept hpass]
        rfl
  · rw [if_neg hv]
    refine .inl ⟨hv, ?_⟩
    have herr : ¬ -einval = 0 := by decide
    simp only [if_neg herr]

/-- Inserting a handler that is not registered. -/
theorem SortedComplete.insert {s : DlSys} (h : SortedComplete s) (dlInd : RmnetMapDlInd)
    (hnew : ∀ x ∈ s.registered, x.addr ≠ dlInd.addr) :
    SortedComplete { port := { dlList := s.port.dlList.orderedInsert RmnetMapDlInd.Before dlInd }
                     registered := dlInd :: s.registered } := by
  have hperm := List.perm_orderedInsert RmnetMapDlInd.Before dlInd s.port.dlList
  refine ⟨hperm.trans (h.complete.cons dlInd), ?_, h.sorted.orderedInsert dlInd⟩
  rw [(hperm.map RmnetMapDlInd.addr).nodup_iff, List.map_cons, List.nodup_cons]
  refine ⟨fun hm => ?_, h.once⟩
  obtain ⟨x, hx, hxa⟩ := List.mem_map.mp hm
  exact hnew x (h.complete.mem_iff.mp hx) hxa

/-- Addresses are unique, so erasing one entry is filtering. -/
theorem eraseP_addr_eq_filter {l : List RmnetMapDlInd} (hnd : (l.map RmnetMapDlInd.addr).Nodup) (addr : ℕ) :
    l.eraseP (fun tmp => tmp.addr = addr) = l.filter fun x => some addr ≠ some x.addr := by
  induction l with
  | nil => rfl
  | cons y l ih =>
    rw [List.map_cons, List.nodup_cons] at hnd
    by_cases hy : y.addr = addr
    · have hrest : l.filter (fun x => some addr ≠ some x.addr) = l := by
        apply List.filter_eq_self.mpr
        intro x hx
        apply decide_eq_true
        intro he
        apply hnd.1
        rw [hy, Option.some.inj he]
        exact List.mem_map_of_mem hx
      rw [List.eraseP_cons_of_pos (by simpa using hy), List.filter_cons_of_neg (by simpa using hy.symm), hrest]
    · have hne : some addr ≠ some y.addr := fun he => hy (Option.some.inj he).symm
      rw [List.eraseP_cons_of_neg (by simpa using hy), List.filter_cons_of_pos (by simpa using hne), ih hnd.2]

/-- Deregistration keeps the list sorted and complete, whether the handler is on it or not. -/
theorem SortedComplete.deregister {s : DlSys} (h : SortedComplete s) (addr : Option ℕ) :
    SortedComplete (dlNext s (.deregister addr)) := by
  rw [dlNext]
  cases addr with
  | none =>
    have hall : s.registered.filter (fun x => (none : Option ℕ) ≠ some x.addr) = s.registered :=
      List.filter_eq_self.mpr fun x _ => by simp
    rw [rmnetMapDlIndDeregister, hall]
    exact h
  | some addr =>
    have hsub : (s.port.dlList.eraseP fun tmp => tmp.addr = addr).Sublist s.port.dlList := List.eraseP_sublist
    rw [rmnetMapDlIndDeregister]
    refine ⟨?_, h.once.sublist (hsub.map _), h.sorted.sublist hsub⟩
    rw [eraseP_addr_eq_filter h.once]
    exact h.complete.filter _

theorem sortedComplete_init (s : DlSys) (h : DlInit s) : SortedComplete s := by
  rw [h]
  exact ⟨List.Perm.refl _, List.nodup_nil, List.Pairwise.nil⟩

/-- A call that stops before the head keeps the list sorted and complete. -/
theorem dlStep_keeps (s : DlSys) (c : DlCall) (s' : DlSys) (h : SortedComplete s) (hs : DlStep s c s')
    (hok : StopsBeforeHead s c) : SortedComplete s' := by
  obtain ⟨hen, rfl⟩ := hs
  match c, hen, hok with
  | .register _ none, _, _ => exact h
  | .register atHead (some dlInd), hen, hok =>
    rcases register_cases s atHead dlInd with ⟨-, heq⟩ | ⟨-, -, heq⟩ | ⟨hno, -⟩
    · rw [heq]
      exact h
    · rw [heq]
      exact h.insert dlInd hen
    · exact absurd hok hno
  | .deregister addr, _, _ => exact h.deregister addr

/-- A call that passes the head reports success for a handler that is not on the list. -/
theorem dlStep_breaks (s : DlSys) (c : DlCall) (s' : DlSys) (h : SortedComplete s) (hs : DlStep s c s')
    (hbad : ¬ StopsBeforeHead s c) : ¬ SortedComplete s' := by
  obtain ⟨hen, rfl⟩ := hs
  match c, hen, hbad with
  | .register _ none, _, hbad => exact absurd trivial hbad
  | .deregister _, _, hbad => exact absurd trivial hbad
  | .register atHead (some dlInd), hen, hbad =>
    rcases register_cases s atHead dlInd with ⟨hv, -⟩ | ⟨-, hok, -⟩ | ⟨-, heq⟩
    · exact absurd (fun h => absurd h hv) hbad
    · exact absurd hok hbad
    · intro h'
      rw [heq] at h'
      have hmem : dlInd ∈ s.port.dlList := h'.complete.mem_iff.mpr List.mem_cons_self
      exact hen dlInd (h.complete.mem_iff.mp hmem) rfl

/-- **Exactly when the handlers are sorted and complete.**  Along a run of registrations and deregistrations,
whatever bytes are found at the head, every state has the registered handlers on the list, each once and in
ascending order, if and only if no registration passes the head. -/
theorem dl_ind_iff (h : List (DlSys × DlCall)) (s : DlSys) (hex : Exec DlInit DlStep h s) :
    (∀ x ∈ h.map Prod.fst ++ [s], SortedComplete x) ↔ ∀ x ∈ h, StopsBeforeHead x.1 x.2 :=
  (hex.forall_iff sortedComplete_init (fun _ hI => hI) dlStep_keeps dlStep_breaks).1

/-- In such a state a marker reaches every registered handler once. -/
theorem SortedComplete.notified {s : DlSys} (h : SortedComplete s) :
    (rmnetMapDlHdrNotifyV2 s.port).Perm (s.registered.map RmnetMapDlInd.dlHdrHandlerV2) ∧
      (rmnetMapDlTrlNotifyV2 s.port).Perm (s.registered.map RmnetMapDlInd.dlTrlHandlerV2) :=
  ⟨h.complete.map _, h.complete.map _⟩

/-! ### A handler that is not linked -/

/-- A valid handler. -/
def sampleInd (addr priority : ℕ) : RmnetMapDlInd :=
  { addr := addr, priority := priority, dlHdrHandlerV2 := some 0, dlTrlHandlerV2 := some 1 }

/-- A port without handlers. -/
def bareDl : DlSys := { port := rmnetMapCmdInit, registered := [] }

/-- A port with one handler, of priority 4. -/
def oneHandler : DlSys := { port := { dlList := [sampleInd 1 4] }, registered := [sampleInd 1 4] }

theorem oneHandler_exec : Exec DlInit DlStep [(bareDl, .register 0 (some (sampleInd 1 4)))] oneHandler := by
  have hstart : Exec DlInit DlStep [] bareDl := .start rfl
  have hstep : DlStep bareDl (.register 0 (some (sampleInd 1 4))) oneHandler :=
    ⟨fun _ hx => absurd hx List.not_mem_nil, rfl⟩
  exact hstart.next hstep

/-- A second handler, of priority 9, behind it. -/
def twoHandlers : DlSys :=
  { port := { dlList := [sampleInd 1 4, sampleInd 2 9] }, registered := [sampleInd 2 9, sampleInd 1 4] }

/-- A third one, of priority 6, between the two. -/
def threeHandlers : DlSys :=
  { port := { dlList := [sampleInd 1 4, sampleInd 3 6, sampleInd 2 9] }
    registered := [sampleInd 3 6, sampleInd 2 9, sampleInd 1 4] }

theorem threeHandlers_exec : Exec DlInit DlStep
    [(bareDl, .register 0 (some (sampleInd 1 4))), (oneHandler, .register 17 (some (sampleInd 2 9))),
      (twoHandlers, .register 0 (some (sampleInd 3 6)))] threeHandlers := by
  have hsecond : DlStep oneHandler (.register 17 (some (sampleInd 2 9))) twoHandlers :=
    ⟨show ∀ x ∈ [sampleInd 1 4], x.addr ≠ 2 by decide, rfl⟩
  have hthird : DlStep twoHandlers (.register 0 (some (sampleInd 3 6))) threeHandlers :=
    ⟨show ∀ x ∈ [sampleInd 2 9, sampleInd 1 4], x.addr ≠ 3 by decide, rfl⟩
  exact (oneHandler_exec.next hsecond).next hthird

/-- The second registration stops at the byte 17 of the head and the third one between the two handlers, so the
list is sorted and complete. -/
theorem dl_ind_first : SortedComplete threeHandlers := by
  refine (dl_ind_iff _ _ threeHandlers_exec).mpr ?_ threeHandlers (by simp)
  intro x hx
  rcases List.mem_cons.mp hx with rfl | hx
  · exact fun _ => .inl rfl
  rcases List.mem_cons.mp hx with rfl | hx
  · exact fun _ => .inr (.inr (show 9 < 17 by decide))
  · rw [List.mem_singleton.mp hx]
    exact fun _ => .inr (.inl ⟨sampleInd 2 9, by decide, by decide⟩)

/-- **A lost handler.**  With a handler of priority 4 on the list and the byte 0 at its head, a handler of
priority 9 is registered with return value 0 and is not on the list. -/
theorem dl_ind_lost : ∃ h s, Exec DlInit DlStep h s ∧ ¬ SortedComplete s ∧
    (rmnetMapDlIndRegister 0 oneHandler.port (some (sampleInd 2 9))).2 = 0 ∧
    sampleInd 2 9 ∈ s.registered ∧ sampleInd 2 9 ∉ s.port.dlList := by
  have hstep : DlStep oneHandler (.register 0 (some (sampleInd 2 9)))
      { port := oneHandler.port, registered := sampleInd 2 9 :: oneHandler.registered } := by
    refine ⟨fun x hx => ?_, rfl⟩
    rw [List.mem_singleton.mp hx]
    decide
  refine ⟨_, _, oneHandler_exec.next hstep, fun h => ?_, by decide, List.mem_cons_self, by decide⟩
  have hmem : sampleInd 2 9 ∈ oneHandler.port.dlList := h.complete.mem_iff.mpr List.mem_cons_self
  revert hmem
  decide

end Rmnet
