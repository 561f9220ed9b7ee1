import Mathlib.Data.List.Basic
import Mathlib.Logic.Function.Basic

/-!
# The log of the rmnet_ctl endpoint

`rmnet_ctl_set_dbgfs` creates the debugfs directory and the IPC log of `ctl_ep`, or removes them, and `rmnet_ctl_log`
writes to the log.  None of them takes a lock or is under RCU, so each access to `ctl_ep` is a step of its own.

* `DbgInv.step` — as long as nobody else is in these functions while the log is removed, nothing is used that is free.
-/

namespace Rmnet

/-! ### Data -/

/-- A pointer that may be an error. -/
inductive DbgPtr
  | null
  | err
  | mem (a : ℕ)
  deriving DecidableEq, Repr

/-- `IS_ERR_OR_NULL`. -/
def DbgPtr.isErrOrNull : DbgPtr → Bool
  | .mem _ => false
  | _ => true

/-- What the pointers point to. -/
inductive DbgObj
  | dir
  | log
  deriving DecidableEq, Repr

/-- The debug part of `struct rmnet_ctl_endpoint`, `ipc_log_lvl`, and the directories and logs that there are.  `fault`
says that one has been used or freed that was free. -/
structure CtlDbg where
  dbgfsDir : DbgPtr
  dbgfsLoglvl : DbgPtr
  ipcLog : DbgPtr
  ipcLogLvl : ℕ
  live : ℕ → Option DbgObj
  fault : Bool

/-- `RMNET_CTL_LOG_ERR`. -/
def rmnetCtlLogErr : ℕ := 1

/-- `RMNET_CTL_LOG_INFO`. -/
def rmnetCtlLogInfo : ℕ := 2

/-- Where a thread stands in `rmnet_ctl_log` or `rmnet_ctl_set_dbgfs`; `idle` is outside.  `log` is before the test of
the level and the pointer, `logRead` before the pointer is read again, and `logWrite` has read it. -/
inductive DbgCall
  | idle
  | log (lvl : ℕ)
  | logRead
  | logWrite (ipcLog : DbgPtr)
  | testDir
  | createDir
  | testFile
  | createFile
  | testLog
  | createLog
  | removeDir
  | destroyLog
  | clearDir
  | clearLoglvl
  | clearLog
  deriving DecidableEq, Repr

/-- `rmnet_ctl_set_dbgfs`, from its start. -/
def rmnetCtlSetDbgfs (enable : Bool) : DbgCall := if enable then .testDir else .removeDir

/-! ### Steps -/

/-- Whoever uses the pointer of a kind; `NULL` and errors are let be. -/
def CtlDbg.touch (d : CtlDbg) (obj : DbgObj) : DbgPtr → CtlDbg
  | .mem a => if d.live a = some obj then d else { d with fault := true }
  | _ => d

/-- A directory or log is freed. -/
def CtlDbg.free (d : CtlDbg) (obj : DbgObj) : DbgPtr → CtlDbg
  | .mem a => if d.live a = some obj then { d with live := Function.update d.live a none } else { d with fault := true }
  | _ => d

/-- What a function that creates something returned: an error, `NULL`, or memory that was free. -/
def CtlDbg.create (d : CtlDbg) (obj : DbgObj) : DbgPtr → Option CtlDbg
  | .mem a => if d.live a = none then some { d with live := Function.update d.live a (some obj) } else none
  | _ => some d

/-- The next step of a call; `made` is what is returned if something is created. -/
def dbgStep (d : CtlDbg) (made : DbgPtr) : DbgCall → Option (CtlDbg × DbgCall)
  | .idle => none
  -- `rmnet_ctl_log`
  | .log lvl => some (d, if lvl ≤ d.ipcLogLvl ∧ d.ipcLog ≠ .null then .logRead else .idle)
  | .logRead => some (d, .logWrite d.ipcLog)
  | .logWrite ipcLog => some (d.touch .log ipcLog, .idle)
  -- `rmnet_ctl_set_dbgfs(true)`
  | .testDir => some (d, if d.dbgfsDir.isErrOrNull then .createDir else .testFile)
  | .createDir => (d.create .dir made).map fun d => ({ d with dbgfsDir := made }, .testFile)
  | .testFile => some (d, if d.dbgfsDir.isErrOrNull then .testLog else .createFile)
  | .createFile => some ({ d.touch .dir d.dbgfsDir with dbgfsLoglvl := made }, .testLog)
  | .testLog => some (d, if d.ipcLog = .null then .createLog else .idle)
  | .createLog => (d.create .log made).map fun d => ({ d with ipcLog := made }, .idle)
  -- `rmnet_ctl_set_dbgfs(false)`
  | .removeDir => some (d.free .dir d.dbgfsDir, .destroyLog)
  | .destroyLog => some (d.free .log d.ipcLog, .clearDir)
  | .clearDir => some ({ d with dbgfsDir := .null }, .clearLoglvl)
  | .clearLoglvl => some ({ d with dbgfsLoglvl := .null }, .clearLog)
  | .clearLog => some ({ d with ipcLog := .null }, .idle)

/-! ### When nothing free is used -/

/-- The call removes the directory and the log. -/
def DbgCall.removing : DbgCall → Bool
  | .removeDir => true
  | .destroyLog => true
  | .clearDir => true
  | .clearLoglvl => true
  | .clearLog => true
  | _ => false

/-- Nobody else is in one of these functions while a thread removes what they use. -/
def DbgQuiet (call : ℕ → DbgCall) : Prop :=
  ∀ t, (call t).removing = true → ∀ t', t' ≠ t → call t' = .idle

/-- The pointer is no memory, or memory of the kind. -/
def CtlDbg.Points (d : CtlDbg) (obj : DbgObj) (p : DbgPtr) : Prop := ∀ a, p = .mem a → d.live a = some obj

/-- What holds of the log: the pointers point to what is there, until a thread has freed it and goes on to clear them,
and a log that is about to be written to is there. -/
structure DbgInv (d : CtlDbg) (call : ℕ → DbgCall) : Prop where
  fault : d.fault = false
  dir : (∃ t, call t = .destroyLog ∨ call t = .clearDir) ∨ d.Points .dir d.dbgfsDir
  log : (∃ t, call t = .clearDir ∨ call t = .clearLoglvl ∨ call t = .clearLog) ∨ d.Points .log d.ipcLog
  held : ∀ t ipcLog, call t = .logWrite ipcLog → d.Points .log ipcLog

section

variable {d d' : CtlDbg} {call : ℕ → DbgCall} {t : ℕ} {c : DbgCall} {made : DbgPtr}

/-- A thread begins with one of the functions. -/
theorem DbgInv.enter (h : DbgInv d call) (ht : call t = .idle) (hc : ∀ ipcLog, c ≠ .logWrite ipcLog) :
    DbgInv d (Function.update call t c) := by
  -- a thread that is in one of the functions is another one
  have hother : ∀ t' c', call t' = c' → c' ≠ .idle → Function.update call t c t' = c' := by
    intro t' c' hcall hbusy
    rw [Function.update_of_ne, hcall]
    rintro rfl
    exact hbusy (hcall.symm.trans ht)
  refine ⟨h.fault, h.dir.imp_left ?_, h.log.imp_left ?_, fun t' ipcLog ht' => ?_⟩
  · rintro ⟨t', ht' | ht'⟩
    · exact ⟨t', .inl (hother t' _ ht' nofun)⟩
    · exact ⟨t', .inr (hother t' _ ht' nofun)⟩
  · rintro ⟨t', ht' | ht' | ht'⟩
    · exact ⟨t', .inl (hother t' _ ht' nofun)⟩
    · exact ⟨t', .inr (.inl (hother t' _ ht' nofun))⟩
    · exact ⟨t', .inr (.inr (hother t' _ ht' nofun))⟩
  · by_cases htt : t' = t
    · subst htt
      rw [Function.update_self] at ht'
      exact absurd ht' (hc ipcLog)
    · rw [Function.update_of_ne htt] at ht'
      exact h.held t' ipcLog ht'

/-- While a thread is in one of the functions and removes nothing, the pointers point to what is there. -/
theorem DbgInv.points (h : DbgInv d call) (hq : DbgQuiet call) (hbusy : call t ≠ .idle)
    (hkeep : (call t).removing = false) : d.Points .dir d.dbgfsDir ∧ d.Points .log d.ipcLog := by
  have hnobody : ∀ t', (call t').removing = true → False := by
    intro t' hr
    by_cases htt : t = t'
    · rw [htt, hr] at hkeep
      cases hkeep
    · exact hbusy (hq t' hr t htt)
  refine ⟨h.dir.resolve_left ?_, h.log.resolve_left ?_⟩
  · rintro ⟨t', ht' | ht'⟩
    · exact hnobody t' (by rw [ht']; rfl)
    · exact hnobody t' (by rw [ht']; rfl)
  · rintro ⟨t', ht' | ht' | ht'⟩
    · exact hnobody t' (by rw [ht']; rfl)
    · exact hnobody t' (by rw [ht']; rfl)
    · exact hnobody t' (by rw [ht']; rfl)

/-- A thread that removes nothing goes on, and what is there stays. -/
theorem DbgInv.goto (h : DbgInv d call) (hfault : d'.fault = false) (hlive : ∀ a obj, d.live a = some obj →
      d'.live a = some obj) (hdir : d'.Points .dir d'.dbgfsDir) (hlog : d'.Points .log d'.ipcLog)
    (hc : ∀ ipcLog, c = .logWrite ipcLog → d'.Points .log ipcLog) : DbgInv d' (Function.update call t c) := by
  refine ⟨hfault, .inr hdir, .inr hlog, fun t' ipcLog ht' => ?_⟩
  by_cases htt : t' = t
  · subst htt
    rw [Function.update_self] at ht'
    exact hc ipcLog ht'
  · rw [Function.update_of_ne htt] at ht'
    exact fun a ha => hlive a _ (h.held t' ipcLog ht' a ha)

/-- A thread that removes nothing goes on, and has at most read. -/
theorem DbgInv.stay (h : DbgInv d call) (hq : DbgQuiet call) (hbusy : call t ≠ .idle)
    (hkeep : (call t).removing = false) (hc : ∀ ipcLog, c ≠ .logWrite ipcLog) :
    DbgInv d (Function.update call t c) := by
  obtain ⟨hdir, hlog⟩ := h.points hq hbusy hkeep
  exact h.goto h.fault (fun _ _ hb => hb) hdir hlog fun ipcLog hwrite => absurd hwrite (hc ipcLog)

/-- What is created is there, and the rest stays. -/
theorem create_spec {obj : DbgObj} (hs : d.create obj made = some d') :
    d'.fault = d.fault ∧ d'.dbgfsDir = d.dbgfsDir ∧ d'.ipcLog = d.ipcLog ∧ d'.Points obj made ∧
      ∀ a o, d.live a = some o → d'.live a = some o := by
  unfold CtlDbg.create at hs
  split at hs
  · rename_i a
    split at hs
    · rename_i hfree
      cases hs
      refine ⟨rfl, rfl, rfl, ?_, fun b o hb => ?_⟩
      · rintro b ⟨⟩
        exact Function.update_self ..
      · have hne : b ≠ a := by
          rintro rfl
          rw [hfree] at hb
          cases hb
        exact (Function.update_of_ne hne _ _).trans hb
    · cases hs
  · rename_i hmade
    cases hs
    exact ⟨rfl, rfl, rfl, fun a ha => absurd ha (hmade a), fun _ _ hb => hb⟩

/-- What points to something that is there can be used. -/
theorem touch_eq {obj : DbgObj} {p : DbgPtr} (h : d.Points obj p) : d.touch obj p = d := by
  cases p with
  | mem a => exact if_pos (h a rfl)
  | null => rfl
  | err => rfl

/-- What is there is freed, and things of another kind stay. -/
theorem free_spec {obj : DbgObj} {p : DbgPtr} (h : d.Points obj p) :
    (d.free obj p).fault = d.fault ∧ (d.free obj p).dbgfsDir = d.dbgfsDir ∧ (d.free obj p).ipcLog = d.ipcLog ∧
      ∀ a o, o ≠ obj → d.live a = some o → (d.free obj p).live a = some o := by
  cases p with
  | mem a =>
    have ha := h a rfl
    rw [CtlDbg.free, if_pos ha]
    refine ⟨rfl, rfl, rfl, fun b o hne hb => ?_⟩
    have hba : b ≠ a := by
      rintro rfl
      exact hne (Option.some.inj (hb.symm.trans ha))
    exact (Function.update_of_ne hba _ _).trans hb
  | null => exact ⟨rfl, rfl, rfl, fun _ _ _ hb => hb⟩
  | err => exact ⟨rfl, rfl, rfl, fun _ _ _ hb => hb⟩

/-- A thread that removes the log goes on; everybody else is outside. -/
theorem DbgQuiet.remove (hq : DbgQuiet call) (ht : (call t).removing = true) (hfault : d'.fault = false)
    (hdir : c = .destroyLog ∨ c = .clearDir ∨ d'.Points .dir d'.dbgfsDir)
    (hlog : c = .clearDir ∨ c = .clearLoglvl ∨ c = .clearLog ∨ d'.Points .log d'.ipcLog)
    (hc : ∀ ipcLog, c ≠ .logWrite ipcLog) : DbgInv d' (Function.update call t c) := by
  have hself : Function.update call t c t = c := Function.update_self ..
  refine ⟨hfault, ?_, ?_, fun t' ipcLog ht' => ?_⟩
  · rcases hdir with hc | hc | hp
    · exact .inl ⟨t, .inl (hself.trans hc)⟩
    · exact .inl ⟨t, .inr (hself.trans hc)⟩
    · exact .inr hp
  · rcases hlog with hc | hc | hc | hp
    · exact .inl ⟨t, .inl (hself.trans hc)⟩
    · exact .inl ⟨t, .inr (.inl (hself.trans hc))⟩
    · exact .inl ⟨t, .inr (.inr (hself.trans hc))⟩
    · exact .inr hp
  · by_cases htt : t' = t
    · subst htt
      exact absurd (hself.symm.trans ht') (hc ipcLog)
    · rw [Function.update_of_ne htt, hq t ht t' htt] at ht'
      cases ht'

/-- Who is in one of the functions while a thread removes the log is that thread. -/
theorem DbgQuiet.alone (hq : DbgQuiet call) (hr : (call t).removing = true) {t' : ℕ} (ht' : call t' = c)
    (hc : c ≠ .idle) : call t = c := by
  by_cases htt : t' = t
  · rw [← htt, ht']
  · exact absurd (ht'.symm.trans (hq t hr t' htt)) hc

/-- The directory is there until the thread that removes the log has freed it. -/
theorem DbgInv.points_dir (h : DbgInv d call) (hq : DbgQuiet call) (hr : (call t).removing = true)
    (hdestroy : call t ≠ .destroyLog) (hclear : call t ≠ .clearDir) : d.Points .dir d.dbgfsDir := by
  refine h.dir.resolve_left ?_
  rintro ⟨t', ht' | ht'⟩
  · exact hdestroy (hq.alone hr ht' nofun)
  · exact hclear (hq.alone hr ht' nofun)

/-- The log is there until the thread that removes it has freed it. -/
theorem DbgInv.points_log (h : DbgInv d call) (hq : DbgQuiet call) (hr : (call t).removing = true)
    (hclear : call t ≠ .clearDir) (hlvl : call t ≠ .clearLoglvl) (hlog : call t ≠ .clearLog) :
    d.Points .log d.ipcLog := by
  refine h.log.resolve_left ?_
  rintro ⟨t', ht' | ht' | ht'⟩
  · exact hclear (hq.alone hr ht' nofun)
  · exact hlvl (hq.alone hr ht' nofun)
  · exact hlog (hq.alone hr ht' nofun)

/-- **The step lemma.**  While nobody else is in these functions when the log is removed, nothing that is free is used
or freed. -/
theorem DbgInv.step (h : DbgInv d call) (hq : DbgQuiet call) {c' : DbgCall}
    (hs : dbgStep d made (call t) = some (d', c')) : DbgInv d' (Function.update call t c') := by
  have hnull : ∀ (d : CtlDbg) obj, d.Points obj .null := fun _ _ a ha => by cases ha
  cases hcall : call t with
  | idle =>
    rw [hcall] at hs
    cases hs
  | log lvl =>
    rw [hcall] at hs
    cases hs
    refine h.stay hq (by rw [hcall]; exact nofun) (by rw [hcall]; rfl) fun ipcLog => ?_
    split
    · exact nofun
    · exact nofun
  | logRead =>
    obtain ⟨hdir, hlog⟩ := h.points hq (by rw [hcall]; exact nofun) (by rw [hcall]; rfl)
    rw [hcall] at hs
    cases hs
    refine h.goto h.fault (fun _ _ hb => hb) hdir hlog ?_
    rintro ipcLog ⟨⟩
    exact hlog
  | logWrite ipcLog =>
    obtain ⟨hdir, hlog⟩ := h.points hq (by rw [hcall]; exact nofun) (by rw [hcall]; rfl)
    have hheld := touch_eq (h.held t ipcLog hcall)
    rw [hcall] at hs
    cases hs
    rw [hheld]
    exact h.goto h.fault (fun _ _ hb => hb) hdir hlog nofun
  | testDir =>
    rw [hcall] at hs
    cases hs
    refine h.stay hq (by rw [hcall]; exact nofun) (by rw [hcall]; rfl) fun ipcLog => ?_
    split
    · exact nofun
    · exact nofun
  | createDir =>
    obtain ⟨-, hlog⟩ := h.points hq (by rw [hcall]; exact nofun) (by rw [hcall]; rfl)
    rw [hcall] at hs
    obtain ⟨d₁, hcreate, heq⟩ := Option.map_eq_some_iff.mp hs
    cases heq
    obtain ⟨hfault, -, hsame, hmade, hlive⟩ := create_spec hcreate
    refine h.goto (hfault.trans h.fault) hlive hmade ?_ nofun
    exact fun a ha => hlive a _ (hlog a (hsame.symm.trans ha))
  | testFile =>
    rw [hcall] at hs
    cases hs
    refine h.stay hq (by rw [hcall]; exact nofun) (by rw [hcall]; rfl) fun ipcLog => ?_
    split
    · exact nofun
    · exact nofun
  | createFile =>
    obtain ⟨hdir, hlog⟩ := h.points hq (by rw [hcall]; exact nofun) (by rw [hcall]; rfl)
    rw [hcall] at hs
    cases hs
    rw [touch_eq hdir]
    exact h.goto h.fault (fun _ _ hb => hb) hdir hlog nofun
  | testLog =>
    rw [hcall] at hs
    cases hs
    refine h.stay hq (by rw [hcall]; exact nofun) (by rw [hcall]; rfl) fun ipcLog => ?_
    split
    · exact nofun
    · exact nofun
  | createLog =>
    obtain ⟨hdir, -⟩ := h.points hq (by rw [hcall]; exact nofun) (by rw [hcall]; rfl)
    rw [hcall] at hs
    obtain ⟨d₁, hcreate, heq⟩ := Option.map_eq_some_iff.mp hs
    cases heq
    obtain ⟨hfault, hsame, -, hmade, hlive⟩ := create_spec hcreate
    refine h.goto (hfault.trans h.fault) hlive ?_ hmade nofun
    exact fun a ha => hlive a _ (hdir a (hsame.symm.trans ha))
  | removeDir =>
    have hr : (call t).removing = true := by rw [hcall]; rfl
    have hdir := h.points_dir hq hr (by rw [hcall]; exact nofun) (by rw [hcall]; exact nofun)
    have hlog := h.points_log hq hr (by rw [hcall]; exact nofun) (by rw [hcall]; exact nofun)
      (by rw [hcall]; exact nofun)
    obtain ⟨hfault, -, hsame, hlive⟩ := free_spec hdir
    rw [hcall] at hs
    cases hs
    refine hq.remove hr (hfault.trans h.fault) (.inl rfl) (.inr (.inr (.inr ?_))) nofun
    exact fun a ha => hlive a _ nofun (hlog a (hsame.symm.trans ha))
  | destroyLog =>
    have hr : (call t).removing = true := by rw [hcall]; rfl
    have hlog := h.points_log hq hr (by rw [hcall]; exact nofun) (by rw [hcall]; exact nofun)
      (by rw [hcall]; exact nofun)
    obtain ⟨hfault, -, -, -⟩ := free_spec hlog
    rw [hcall] at hs
    cases hs
    exact hq.remove hr (hfault.trans h.fault) (.inr (.inl rfl)) (.inl rfl) nofun
  | clearDir =>
    have hr : (call t).removing = true := by rw [hcall]; rfl
    rw [hcall] at hs
    cases hs
    exact hq.remove hr h.fault (.inr (.inr (hnull _ _))) (.inr (.inl rfl)) nofun
  | clearLoglvl =>
    have hr : (call t).removing = true := by rw [hcall]; rfl
    have hdir := h.points_dir hq hr (by rw [hcall]; exact nofun) (by rw [hcall]; exact nofun)
    rw [hcall] at hs
    cases hs
    exact hq.remove hr h.fault (.inr (.inr hdir)) (.inr (.inr (.inl rfl))) nofun
  | clearLog =>
    have hr : (call t).removing = true := by rw [hcall]; rfl
    have hdir := h.points_dir hq hr (by rw [hcall]; exact nofun) (by rw [hcall]; exact nofun)
    rw [hcall] at hs
    cases hs
    exact hq.remove hr h.fault (.inr (.inr hdir)) (.inr (.inr (.inr (hnull _ _)))) nofun

end

end Rmnet
