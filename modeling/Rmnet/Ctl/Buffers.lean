import Rmnet.Errno
import Rmnet.Lib.Owner
import Rmnet.Lib.Transition

/-!
# Receive buffers of the rmnet_ctl channel

`rmnet_ctl_probe` and the callbacks of the channel run `rmnet_ctl_alloc_buffers`, each cut where another can come in
between.  What the channel does is arbitrary: how many descriptors it says are free, whether it takes a buffer, and
when and with which status it gives one back.

* `rx_buffers_accounted` — every buffer is queued once, in the hands of one call, or has been freed once.
-/

namespace Rmnet

open Transition Owner

/-! ### The driver -/

/-- `struct mhi_result`.  A transfer is no longer than its buffer, which `kmalloc` has given; so it never has the
length by which `rmnet_ctl_endpoint_post` knows an skb. -/
structure MhiResult where
  transactionStatus : ℤ
  bufAddr : Option ℕ
  bytesXferd : ℕ
  noSkb : bytesXferd < 0xFFFFFFFF := by decide
  deriving DecidableEq, Repr

/-- Where a call stands in `rmnet_ctl_alloc_buffers`: before `mhi_get_no_free_descriptors`, in the loop with `left`
iterations to go, or with a buffer to queue. -/
inductive MhiCall
  | idle
  | supplying (freeBuf : Option ℕ)
  | filling (left : ℕ) (freeBuf : Option ℕ)
  | queueing (left : ℕ) (buf : ℕ)
  deriving DecidableEq, Repr

/-- The memory, the buffers that the channel has, and the calls.  `fault` says that a buffer has been read or freed
that was free. -/
structure CtlMhi where
  heap : ℕ → Bool
  ring : List ℕ
  call : ℕ → MhiCall
  fault : Bool

/-- The call goes on. -/
def CtlMhi.goto (s : CtlMhi) (t : ℕ) (c : MhiCall) : CtlMhi := { s with call := Function.update s.call t c }

/-- `kfree` of a buffer. -/
def CtlMhi.kfree (s : CtlMhi) (a : ℕ) : CtlMhi :=
  if s.heap a then { s with heap := Function.update s.heap a false } else { s with fault := true }

/-- `rmnet_ctl_endpoint_post`, which copies a buffer that is no skb. -/
def CtlMhi.post (s : CtlMhi) (a : ℕ) : CtlMhi := if s.heap a then s else { s with fault := true }

/-- `rmnet_ctl_dl_callback`, as far as `rmnet_ctl_alloc_buffers`; the channel has let go of the buffer. -/
def rmnetCtlDlCallback (s : CtlMhi) (t : ℕ) (res : MhiResult) : CtlMhi :=
  match res.bufAddr with
  | none =>
      if res.transactionStatus = -enotconn then s.goto t .idle
      else s.goto t (.supplying none)
  | some a =>
      if res.transactionStatus = -enotconn then (s.kfree a).goto t .idle
      else if res.transactionStatus ≠ 0 ∨ res.bytesXferd = 0 then s.goto t (.supplying (some a))
      else (s.post a).goto t (.supplying (some a))

/-- The next step of `rmnet_ctl_alloc_buffers`: `noTre` is what `mhi_get_no_free_descriptors` returns, `kmalloc` the
memory that the allocator gives, if any, and `rc` what `mhi_queue_transfer` returns. -/
def rmnetCtlAllocBuffers (s : CtlMhi) (t : ℕ) (noTre : ℕ) (kmalloc : Option ℕ) (rc : ℤ) : Option CtlMhi :=
  match s.call t with
  | .idle => none
  | .supplying freeBuf =>
      match freeBuf with
      | none => some (s.goto t (.filling noTre none))
      | some a => if noTre = 0 then some ((s.kfree a).goto t .idle) else some (s.goto t (.filling noTre (some a)))
  | .filling 0 _ => some (s.goto t .idle)
  | .filling (n + 1) (some a) => some (s.goto t (.queueing n a))
  | .filling (n + 1) none =>
      match kmalloc with
      | none => some (s.goto t .idle)
      | some a =>
          if s.heap a then none
          else some ({ s with heap := Function.update s.heap a true }.goto t (.queueing n a))
  | .queueing n a =>
      if rc = 0 then some ({ s with ring := s.ring ++ [a] }.goto t (.filling n none))
      else some ((s.kfree a).goto t .idle)

/-- A call begins, or goes on. -/
inductive MhiEvent
  | probe (t : ℕ)
  | dlCallback (t : ℕ) (res : MhiResult)
  | go (t : ℕ) (noTre : ℕ) (kmalloc : Option ℕ) (rc : ℤ)
  deriving DecidableEq, Repr

/-- One step.  The channel gives back what it has, each buffer once. -/
def mhiStep (s : CtlMhi) : MhiEvent → Option CtlMhi
  | .probe t => if s.call t = .idle then some (s.goto t (.supplying none)) else none
  | .dlCallback t res =>
      if s.call t = .idle ∧ ∀ a ∈ res.bufAddr, a ∈ s.ring then
        some (rmnetCtlDlCallback { s with ring := s.ring.filter fun a => res.bufAddr ≠ some a } t res)
      else none
  | .go t noTre kmalloc rc => rmnetCtlAllocBuffers s t noTre kmalloc rc

/-- The step relation. -/
def MhiStep (s : CtlMhi) (e : MhiEvent) (s' : CtlMhi) : Prop := mhiStep s e = some s'

/-- Nothing has been probed. -/
def MhiInit (s : CtlMhi) : Prop := s = { heap := fun _ => false, ring := [], call := fun _ => .idle, fault := false }

/-! ### The invariant -/

/-- The buffer that a call has. -/
def MhiCall.holds : MhiCall → Option ℕ
  | .idle => none
  | .supplying freeBuf => freeBuf
  | .filling _ freeBuf => freeBuf
  | .queueing _ buf => some buf

/-- The buffer that the callback gave is used in the first iteration. -/
def MhiCall.Used : MhiCall → Prop
  | .filling left (some _) => 0 < left
  | _ => True

/-- What holds in every state. -/
structure MhiInv (heap : ℕ → Bool) (ring : List ℕ) (own : ℕ → Option ℕ) : Prop where
  nodup : ring.Nodup
  once : Once id own
  apart : ∀ a ∈ ring, ¬ Held own a
  accounted : ∀ a, heap a = true ↔ a ∈ ring ∨ Held own a

section

variable {heap : ℕ → Bool} {ring : List ℕ} {own : ℕ → Option ℕ} {t a : ℕ}

/-- A call frees the buffer that it has. -/
theorem MhiInv.free (h : MhiInv heap ring own) (ht : own t = some a) :
    MhiInv (Function.update heap a false) ring (Function.update own t none) where
  nodup := h.nodup
  once := h.once.give
  apart := by
    intro b hb ho
    rcases (held_update h.once none b).mp ho with hno | ⟨-, ho⟩
    · cases hno
    · exact h.apart b hb ho
  accounted := by
    intro b
    rw [held_update h.once none b]
    by_cases hba : b = a
    · subst hba
      simpa [ht] using fun hb => h.apart b hb ⟨t, ht⟩
    · have hne : own t ≠ some b := by
        rw [ht]
        exact fun heq => hba (Option.some.inj heq).symm
      rw [Function.update_of_ne hba, h.accounted b]
      simp [hne]

/-- A call that had none comes by a new buffer. -/
theorem MhiInv.alloc (h : MhiInv heap ring own) (ha : heap a = false) (ht : own t = none) :
    MhiInv (Function.update heap a true) ring (Function.update own t (some a)) where
  nodup := h.nodup
  once := h.once.take fun b hb ho => by
    obtain rfl : b = a := hb
    have hheap := (h.accounted b).mpr (.inr ho)
    rw [ha] at hheap
    cases hheap
  apart := by
    intro b hb ho
    rcases (held_update h.once (some a) b).mp ho with heq | ⟨-, ho⟩
    · obtain rfl := Option.some.inj heq
      have hheap := (h.accounted a).mpr (.inl hb)
      rw [ha] at hheap
      cases hheap
    · exact h.apart b hb ho
  accounted := by
    intro b
    rw [held_update h.once (some a) b]
    by_cases hba : b = a
    · subst hba
      simp
    · have hne : some a ≠ some b := fun heq => hba (Option.some.inj heq).symm
      rw [Function.update_of_ne hba, h.accounted b]
      simp [hne, ht]

/-- A call queues the buffer that it has. -/
theorem MhiInv.queue (h : MhiInv heap ring own) (ht : own t = some a) :
    MhiInv heap (ring ++ [a]) (Function.update own t none) where
  nodup := by
    refine List.nodup_append.mpr ⟨h.nodup, by simp, fun b hb c hc hbc => ?_⟩
    obtain rfl := List.mem_singleton.mp hc
    exact h.apart b hb (hbc ▸ ⟨t, ht⟩)
  once := h.once.give
  apart := by
    intro b hb ho
    rcases (held_update h.once none b).mp ho with hno | ⟨hne, ho⟩
    · cases hno
    · rcases List.mem_append.mp hb with hb | hb
      · exact h.apart b hb ho
      · rw [List.mem_singleton.mp hb] at hne
        exact hne ht
  accounted := by
    intro b
    rw [held_update h.once none b, h.accounted b, List.mem_append, List.mem_singleton]
    by_cases hba : b = a
    · subst hba
      simpa [ht] using .inr ⟨t, ht⟩
    · have hne : own t ≠ some b := by
        rw [ht]
        exact fun heq => hba (Option.some.inj heq).symm
      simp [hne, hba]

/-- The channel gives a buffer to a call that had none. -/
theorem MhiInv.give (h : MhiInv heap ring own) (ha : a ∈ ring) (ht : own t = none) :
    MhiInv heap (ring.filter fun b => some a ≠ some b) (Function.update own t (some a)) where
  nodup := h.nodup.filter _
  once := h.once.take fun b hb ho => by
    obtain rfl : b = a := hb
    exact h.apart b ha ho
  apart := by
    intro b hb ho
    obtain ⟨hb, hne⟩ := List.mem_filter.mp hb
    rcases (held_update h.once (some a) b).mp ho with heq | ⟨-, ho⟩
    · simp [heq] at hne
    · exact h.apart b hb ho
  accounted := by
    intro b
    rw [held_update h.once (some a) b, h.accounted b, List.mem_filter]
    by_cases hba : b = a
    · subst hba
      simp [ha]
    · have hne : some a ≠ some b := fun heq => hba (Option.some.inj heq).symm
      simp [hne, ht]

end

/-- What holds in every state, of the driver. -/
structure CtlMhi.Sound (s : CtlMhi) : Prop where
  inv : MhiInv s.heap s.ring fun t => (s.call t).holds
  used : ∀ t, (s.call t).Used
  fault : s.fault = false

section

variable {s s' : CtlMhi} {t a : ℕ}

/-- What the calls have, when one goes on. -/
theorem holds_update (call : ℕ → MhiCall) (t : ℕ) (c : MhiCall) :
    (fun t' => (Function.update call t c t').holds) = Function.update (fun t' => (call t').holds) t c.holds :=
  Function.comp_update MhiCall.holds call t c

theorem used_update {call : ℕ → MhiCall} (h : ∀ t, (call t).Used) {c : MhiCall} (hc : c.Used) :
    ∀ t', (Function.update call t c t').Used :=
  (Function.forall_update_iff _ fun _ (c : MhiCall) => c.Used).mpr ⟨hc, fun t' _ => h t'⟩

/-- A call goes on with the buffer that it has, or without. -/
theorem CtlMhi.Sound.goto (h : s.Sound) {c : MhiCall} (hc : c.holds = (s.call t).holds) (hu : c.Used) :
    (s.goto t c).Sound := by
  refine ⟨?_, used_update h.used hu, h.fault⟩
  show MhiInv s.heap s.ring fun t' => (Function.update s.call t c t').holds
  have hself : Function.update (fun t' => (s.call t').holds) t (s.call t).holds = fun t' => (s.call t').holds :=
    Function.update_eq_self t _
  rw [holds_update, hc, hself]
  exact h.inv

/-- A call frees the buffer that it has. -/
theorem CtlMhi.Sound.kfree (h : s.Sound) (ht : (s.call t).holds = some a) : ((s.kfree a).goto t .idle).Sound := by
  have hheap : s.heap a = true := (h.inv.accounted a).mpr (.inr ⟨t, ht⟩)
  rw [CtlMhi.kfree, if_pos hheap]
  refine ⟨?_, used_update h.used trivial, h.fault⟩
  show MhiInv _ s.ring fun t' => (Function.update s.call t .idle t').holds
  rw [holds_update]
  exact h.inv.free ht

/-- `rmnet_ctl_dl_callback`, with a buffer that the channel gives. -/
theorem CtlMhi.Sound.dlCallback (h : s.Sound) (ht : s.call t = .idle) {res : MhiResult}
    (hres : ∀ a ∈ res.bufAddr, a ∈ s.ring) :
    (rmnetCtlDlCallback { s with ring := s.ring.filter fun a => res.bufAddr ≠ some a } t res).Sound := by
  have hhold : (s.call t).holds = none := by rw [ht]; rfl
  unfold rmnetCtlDlCallback
  cases hbuf : res.bufAddr with
  | none =>
    have hsame : { s with ring := s.ring.filter fun a => (none : Option ℕ) ≠ some a } = s := by simp
    simp only [hsame]
    split
    · exact h.goto hhold.symm trivial
    · exact h.goto hhold.symm trivial
  | some a =>
    have ha := hres a hbuf
    have hgive : MhiInv s.heap (s.ring.filter fun b => some a ≠ some b)
        (Function.update (fun t' => (s.call t').holds) t (some a)) := h.inv.give ha hhold
    -- the call has the buffer, whatever it does with it next
    have hhas : ({ s with ring := s.ring.filter fun b => some a ≠ some b }.goto t (.supplying (some a))).Sound := by
      refine ⟨?_, used_update h.used trivial, h.fault⟩
      show MhiInv s.heap _ fun t' => (Function.update s.call t _ t').holds
      rw [holds_update]
      exact hgive
    dsimp only
    split
    · have hfree := hhas.kfree (t := t) (a := a) (by
        show (Function.update s.call t (MhiCall.supplying (some a)) t).holds = some a
        rw [Function.update_self]
        rfl)
      have hheap : s.heap a = true := (h.inv.accounted a).mpr (.inl ha)
      simp only [CtlMhi.kfree, CtlMhi.goto, hheap, if_true, Function.update_idem] at hfree ⊢
      exact hfree
    · split
      · exact hhas
      · have hheap : s.heap a = true := (h.inv.accounted a).mpr (.inl ha)
        have hpost : CtlMhi.post { s with ring := s.ring.filter fun b => some a ≠ some b } a =
            { s with ring := s.ring.filter fun b => some a ≠ some b } := if_pos hheap
        rw [hpost]
        exact hhas

/-- `rmnet_ctl_alloc_buffers`, one step further. -/
theorem CtlMhi.Sound.allocBuffers (h : s.Sound) {noTre : ℕ} {kmalloc : Option ℕ} {rc : ℤ}
    (hs : rmnetCtlAllocBuffers s t noTre kmalloc rc = some s') : s'.Sound := by
  unfold rmnetCtlAllocBuffers at hs
  split at hs
  · cases hs
  · rename_i freeBuf ht
    split at hs
    · obtain rfl := Option.some.inj hs
      exact h.goto (by rw [ht]; rfl) trivial
    · rename_i a
      split at hs
      · obtain rfl := Option.some.inj hs
        exact h.kfree (by rw [ht]; rfl)
      · rename_i hno
        obtain rfl := Option.some.inj hs
        exact h.goto (by rw [ht]; rfl) (Nat.pos_of_ne_zero hno)
  · rename_i freeBuf ht
    obtain rfl := Option.some.inj hs
    -- the buffer of the callback has been queued in an iteration before
    have hused := h.used t
    rw [ht] at hused
    refine h.goto ?_ trivial
    rw [ht]
    cases freeBuf with
    | none => rfl
    | some a => exact absurd hused (Nat.lt_irrefl 0)
  · rename_i n a ht
    obtain rfl := Option.some.inj hs
    exact h.goto (by rw [ht]; rfl) trivial
  · rename_i n ht
    split at hs
    · obtain rfl := Option.some.inj hs
      exact h.goto (by rw [ht]; rfl) trivial
    · rename_i a
      split at hs
      · cases hs
      · rename_i ha
        obtain rfl := Option.some.inj hs
        refine ⟨?_, used_update h.used trivial, h.fault⟩
        show MhiInv _ s.ring fun t' => (Function.update s.call t _ t').holds
        rw [holds_update]
        exact h.inv.alloc (Bool.eq_false_iff.mpr ha) (by rw [ht]; rfl)
  · rename_i n a ht
    split at hs
    · obtain rfl := Option.some.inj hs
      refine ⟨?_, used_update h.used trivial, h.fault⟩
      show MhiInv s.heap _ fun t' => (Function.update s.call t _ t').holds
      rw [holds_update]
      exact h.inv.queue (by rw [ht]; rfl)
    · obtain rfl := Option.some.inj hs
      exact h.kfree (by rw [ht]; rfl)

/-- **The step lemma.** -/
theorem CtlMhi.Sound.step (h : s.Sound) {e : MhiEvent} (hs : MhiStep s e s') : s'.Sound := by
  unfold MhiStep mhiStep at hs
  split at hs
  · split at hs
    · rename_i ht
      obtain rfl := Option.some.inj hs
      exact h.goto (by rw [ht]; rfl) trivial
    · cases hs
  · split at hs
    · rename_i hc
      obtain rfl := Option.some.inj hs
      exact h.dlCallback hc.1 hc.2
    · cases hs
  · exact h.allocBuffers hs

/-- **The run lemma.** -/
theorem mhiRun_sound {h : List (CtlMhi × MhiEvent)} (hex : Exec MhiInit MhiStep h s) :
    ∀ x ∈ h.map Prod.fst ++ [s], x.Sound := by
  refine hex.invariant (fun s hi => ?_) (fun _ _ _ hI hs (_ : True) => hI.step hs) fun _ _ => trivial
  obtain rfl : s = _ := hi
  have hnone : ∀ a, ¬ Held (fun _ : ℕ => (none : Option ℕ)) a := by
    rintro a ⟨t, ht⟩
    cases ht
  refine ⟨⟨List.nodup_nil, fun _ _ _ _ ht => (by cases ht), fun _ hb => absurd hb List.not_mem_nil, fun a => ?_⟩,
    fun _ => trivial, rfl⟩
  simpa [MhiCall.holds] using hnone a

/-- **Every receive buffer is accounted for.**  In every state of every run no buffer has been read or freed that was
free; a buffer that has not been freed is queued with the channel, once, or in the hands of one call, and never both;
and when no call is running and the channel has given back what it had, all have been freed. -/
theorem rx_buffers_accounted {h : List (CtlMhi × MhiEvent)} (hex : Exec MhiInit MhiStep h s) :
    ∀ x ∈ h.map Prod.fst ++ [s], x.fault = false ∧ x.ring.Nodup ∧
      (∀ a, x.heap a = true ↔ a ∈ x.ring ∨ ∃ t, (x.call t).holds = some a) ∧
      (∀ a ∈ x.ring, ∀ t, (x.call t).holds ≠ some a) ∧
      (∀ t t' a, (x.call t).holds = some a → (x.call t').holds = some a → t = t') ∧
      ((∀ t, x.call t = .idle) → x.ring = [] → ∀ a, x.heap a = false) := by
  intro x hx
  have hinv := mhiRun_sound hex x hx
  refine ⟨hinv.fault, hinv.inv.nodup, hinv.inv.accounted, fun a ha t ht => hinv.inv.apart a ha ⟨t, ht⟩,
    fun t t' a ht ht' => hinv.inv.once t t' a a ht ht' rfl, fun hidle hring a => ?_⟩
  rw [Bool.eq_false_iff]
  intro ha
  rcases (hinv.inv.accounted a).mp ha with hr | ⟨t, ht⟩
  · rw [hring] at hr
    exact List.not_mem_nil hr
  · dsimp only at ht
    rw [hidle t] at ht
    cases ht

end

/-! ### A buffer that comes back and is queued again -/

/-- Nothing has been probed. -/
def noMhi : CtlMhi := { heap := fun _ => false, ring := [], call := fun _ => .idle, fault := false }

/-- The probe queues two buffers, and the first comes back with a message and is queued again, while the second is given
back when the channel is reset. -/
def resupplyEvents : List MhiEvent :=
  [.probe 0, .go 0 2 none 0, .go 0 0 (some 8) 0, .go 0 0 none 0, .go 0 0 (some 9) 0, .go 0 0 none 0,
    .dlCallback 1 ⟨0, some 8, 20, by decide⟩, .dlCallback 2 ⟨-107, some 9, 0, by decide⟩, .go 1 1 none 0,
    .go 1 0 none 0, .go 1 0 none 0]

/-- One buffer is queued, and the other has been freed. -/
theorem rx_buffers_accounted_resupply :
    ∃ h s, Exec MhiInit MhiStep h s ∧ s.ring = [8] ∧ s.heap 8 = true ∧ s.heap 9 = false ∧ s.fault = false := by
  have hrun : ∃ s, runList mhiStep noMhi resupplyEvents = some s ∧ s.ring = [8] ∧ s.heap 9 = false := by
    refine ⟨_, rfl, ?_, ?_⟩
    · decide
    · decide
  obtain ⟨s, hrun, hring, hfreed⟩ := hrun
  have hstart : Exec MhiInit MhiStep [] noMhi := Exec.start rfl
  obtain ⟨h, hex, -⟩ := Exec.extend (k := fun _ _ => True) resupplyEvents (fun _ _ _ => trivial) hstart
    (fun _ _ => trivial) hrun
  have hacc := rx_buffers_accounted hex s (by simp)
  exact ⟨h, s, hex, hring, (hacc.2.2.1 8).mpr (.inl (by simp [hring])), hfreed, hacc.1⟩

end Rmnet
