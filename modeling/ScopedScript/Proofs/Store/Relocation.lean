import ScopedScript.Proofs.Store.Rewording

namespace ScopedScript

variable {α : Type} (f g : Location → Location)

def Method.relocate (m : Method) : Method := { m with body := Block.relocate f m.body }

namespace Method

theorem relocate_relocate (m : Method) : (m.relocate f).relocate g = m.relocate (g ∘ f) := by
  simp [relocate, Block.relocate_relocate]

theorem relocate_id (m : Method) : m.relocate id = m := by
  simp [relocate, Block.relocate_id]

theorem reword_moving (m : Method) : m.reword (.moving f) = m.relocate f := by
  rw [reword, relocate, Block.reword_moving]
  exact congrArg (Method.mk m.name · _ m.template) (List.map_id m.parameters)

end Method

namespace Scope

def relocate (s : Scope α) : Scope α := { s with methods := s.methods.map (Method.relocate f) }

theorem relocate_relocate (s : Scope α) : (s.relocate f).relocate g = s.relocate (g ∘ f) := by
  rw [relocate, relocate, List.map_map]
  exact congrArg (fun m => { s with methods := s.methods.map m })
    (funext (Method.relocate_relocate f g))

theorem relocate_id (s : Scope α) : s.relocate id = s := by
  rw [relocate, funext Method.relocate_id, List.map_id']

theorem reword_moving (s : Scope α) : s.reword (.moving f) = s.relocate f := by
  rw [reword, relocate, funext (Method.reword_moving f)]
  exact congrArg (Scope.mk s.parent s.ordinal · _) (List.map_id s.vars)

end Scope

namespace Store

def relocate (s : Store α) : Store α := { s with scopes := s.scopes.map (Scope.relocate f) }

theorem relocate_relocate (s : Store α) : (s.relocate f).relocate g = s.relocate (g ∘ f) := by
  rw [relocate, relocate, Array.map_map]
  exact congrArg (fun m => { s with scopes := s.scopes.map m })
    (funext (Scope.relocate_relocate f g))

theorem relocate_id (s : Store α) : s.relocate id = s := by
  have scope : (Scope.relocate id : Scope α → Scope α) = id := funext Scope.relocate_id
  rw [relocate, scope, Array.map_id]

theorem reword_moving (s : Store α) : s.reword (.moving f) = s.relocate f := by
  rw [reword, relocate, funext (Scope.reword_moving f)]

theorem snapshot_relocate (s : Store α) (id : ScopeId) :
    (s.relocate f).snapshot id = s.snapshot id := by
  simp only [snapshot, relocate, Array.getElem?_map, Option.map_map]
  rfl

end Store

namespace Session

def relocate (s : Session) : Session := { s with store := s.store.relocate f }

theorem relocate_relocate (s : Session) : (s.relocate f).relocate g = s.relocate (g ∘ f) := by
  simp [relocate, Store.relocate_relocate]

theorem relocate_id (s : Session) : s.relocate id = s := by
  simp [relocate, Store.relocate_id]

theorem reword_moving (s : Session) : s.reword (.moving f) = s.relocate f := by
  rw [reword, relocate, Store.reword_moving]

end Session

end ScopedScript
