import ScopedScript.Proofs.Run.Rewording
import ScopedScript.Proofs.Store.Relocation

namespace ScopedScript

variable (f : Location → Location) (notes : Array String)

def ScriptError.relocate (e : ScriptError) : ScriptError :=
  { e with location := e.location.map f }

def Failure.relocate : Failure → Failure
  | .error e => .error (e.relocate f)
  | .fault x => .fault x

namespace Failure

@[simp] theorem mapError_ok {α : Type} (a : α) :
    (Except.ok a).mapError (relocate f) = .ok a := rfl

theorem reword_moving (x : Failure) : x.reword (.moving f) = x.relocate f := by
  cases x with
  | fault => rfl
  | error e =>
    have cause : e.cause.rename id = e.cause := e.cause.rename_id
    exact congrArg (fun cause => Failure.error ⟨cause, e.location.map f⟩) cause

end Failure

theorem Expr.value_relocate (view : View Value) (e : Expr) :
    (e.relocate f).value view = (e.value view).mapError (Failure.relocate f) := by
  rw [← funext (Failure.reword_moving f), ← e.reword_moving]
  exact e.value_reword fun _ => rfl

def Machine.relocate (m : Machine) : Machine := ⟨m.toSession.relocate f, notes ++ m.trace⟩

def Outcome.relocate {α : Type} (o : Outcome α) : Outcome α :=
  ⟨o.result.mapError (Failure.relocate f), o.machine.relocate f notes⟩

def Relocates {α : Type} (run run' : Machine → Outcome α) : Prop :=
  ∀ m : Machine, run' (m.relocate f notes) = (run m).relocate f notes

theorem traced_moving (settings : Settings) :
    (Rewording.moving f).Traced (fun trace trace' => trace' = notes ++ trace) settings
      settings := by
  have noted {m m' : Machine} (line : String) (h : m'.trace = notes ++ m.trace) :
      (m'.note settings line).trace = notes ++ (m.note settings line).trace := by
    unfold Machine.note
    split
    · simp [h]
    · exact h
  refine ⟨rfl, noted, fun {m m'} e h => ?_⟩
  rw [e.reword_moving, e.render_relocate]
  exact noted _ h

variable {f notes}

theorem Block.run_relocate (settings : Settings) (program : Block) :
    Relocates f notes (Block.run settings program)
      (Block.run settings (Block.relocate f program)) := by
  intro m
  have start : m.Mirrors (.moving f) (fun trace trace' => trace' = notes ++ trace)
      (m.relocate f notes) := ⟨(m.toSession.reword_moving f).symm, rfl⟩
  have mirrors := Block.run_mirrors (traced_moving f notes settings) program _ _ start
  rw [Block.reword_moving] at mirrors
  generalize Block.run settings (Block.relocate f program) (m.relocate f notes) = o at mirrors ⊢
  obtain ⟨result, n⟩ := o
  obtain ⟨rfl, machine⟩ := mirrors
  obtain ⟨_, rfl, rfl⟩ := machine.exists_eq
  rw [funext (Failure.reword_moving f), Session.reword_moving]
  rfl

end ScopedScript
