/-
LogRedaction.Proofs.Workspace — running actions, one after the other.

An action is run by `run_bind` and by what each basic action does to the workspace. With these
lemmas an action that is written out step by step is run step by step, and no proof unfolds the
monad again.
-/
import LogRedaction.Workspace

namespace LogRedaction

/-- The token with a number. -/
def Workspace.tokenAt (w : Workspace) (n : Nat) : Token := ⟨w.clock n, n⟩

namespace Action

/-! ## Actions on any state -/

section Any

variable {σ ε α β : Type}

/-- What follows an action is run where the action ends, unless it fails. -/
theorem run_bind (x : ExceptT ε (StateM σ) α) (f : α → ExceptT ε (StateM σ) β) (s : σ) :
    (x >>= f).run s = match x.run s with
      | (.ok a, s) => (f a).run s
      | (.error e, s) => (.error e, s) := by
  simp only [bind, ExceptT.bind, ExceptT.mk, StateT.bind, ExceptT.run, ExceptT.bindCont]
  rcases x s with ⟨e | a, s'⟩ <;> rfl

@[simp] theorem run_pure (a : α) (s : σ) :
    (pure a : ExceptT ε (StateM σ) α).run s = (.ok a, s) := rfl

@[simp] theorem run_get (s : σ) : (get : ExceptT ε (StateM σ) σ).run s = (.ok s, s) := rfl

@[simp] theorem run_modify (f : σ → σ) (s : σ) :
    (modify f : ExceptT ε (StateM σ) PUnit).run s = (.ok ⟨⟩, f s) := rfl

end Any

/-! ## Actions on a workspace -/

variable {ε : Type}

@[simp] theorem run_note (event : Event) (w : Workspace) :
    (note event : Action ε PUnit).run w = (.ok ⟨⟩, { w with log := w.log ++ [event] }) := rfl

@[simp] theorem run_noteAll (events : List Event) (w : Workspace) :
    (noteAll events : Action ε PUnit).run w = (.ok ⟨⟩, { w with log := w.log ++ events }) := rfl

@[simp] theorem run_token (w : Workspace) : (token : Action ε Token).run w =
    (.ok (w.tokenAt w.nextToken), { w with nextToken := w.nextToken + 1 }) := rfl

theorem run_report (error : ReportFault → ε) (record : Record) (w : Workspace) :
    (report error record).run w = match w.report.add? w.disk record with
      | .ok (report, disk) => (.ok ⟨⟩, { w with report, disk })
      | .error fault => (.error (error fault), w) := by
  rw [report, run_bind, run_get]
  simp only
  cases w.report.add? w.disk record with
  | error fault => rfl
  | ok next => rfl

theorem run_reportEntries (error : ReportFault → ε) (texts : List Text) (w : Workspace) :
    (reportEntries error texts).run w = match w.report.addEntries? w.disk texts with
      | .ok (report, disk) => (.ok ⟨⟩, { w with report, disk })
      | .error fault => (.error (error fault), w) := by
  rw [reportEntries, run_bind, run_get]
  simp only
  cases w.report.addEntries? w.disk texts with
  | error fault => rfl
  | ok next => rfl

theorem run_changeDisk (change : Disk → Except DiskRefusal Disk) (error : DiskRefusal → ε)
    (w : Workspace) :
    (changeDisk change error).run w = match change w.disk with
      | .ok disk => (.ok ⟨⟩, { w with disk })
      | .error e => (.error (error e), w) := by
  rw [changeDisk, run_bind, run_get]
  simp only
  cases change w.disk with
  | error e => rfl
  | ok next => rfl

end Action

end LogRedaction
