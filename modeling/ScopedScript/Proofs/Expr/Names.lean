import Mathlib.Data.List.TakeWhile
import ScopedScript.Proofs.Run.Failure

namespace ScopedScript

namespace Expr

variable {view : View Value} {room : Nat} {e : Expr} {f : Failure}

theorem bound_of_checkBound (h : e.checkBound view room = .ok ()) :
    ∀ n ∈ e.names, (view n.text).isSome := by
  fun_induction checkBound view room e with
  | case1 => cases h
  | case2 => simp [names]
  | case3 room n hn => simpa [names] using hn
  | case4 => cases h
  | case5 room op e ih => exact ih h
  | case6 => cases h
  | case7 room l op r hl ihl ihr | case9 room l op r hl ihl ihr =>
    intro n hn
    rcases List.mem_append.1 hn with hn | hn
    · exact ihl hl n hn
    · exact ihr h n hn
  | case8 => cases h

theorem unresolved?_eq_none (h : ∀ n ∈ e.names, (view n.text).isSome) :
    e.unresolved? view = none := by
  rw [unresolved?_eq_find?, List.find?_eq_none]
  intro n hn
  simpa [Option.isSome_iff_ne_none] using h n hn

theorem checkBound_error (h : e.checkBound view room = .error f) :
    f = tooDeep ∨ ∃ n, e.unresolved? view = some n ∧ f = .error (unboundError n) := by
  fun_induction checkBound view room e with
  | case1 =>
    cases h
    exact .inl rfl
  | case2 => cases h
  | case3 => cases h
  | case4 room n hn =>
    cases h
    exact .inr ⟨n, by simp [unresolved?, hn], rfl⟩
  | case5 room op e ih => exact ih h
  | case6 room l op r g hl ih | case8 room l op r g hl ih =>
    cases h
    rcases ih hl with deep | ⟨n, hn, rfl⟩
    · exact .inl deep
    · exact .inr ⟨n, by simp [unresolved?, hn], rfl⟩
  | case7 room l op r hl ihl ihr | case9 room l op r hl ihl ihr =>
    rcases ihr h with deep | ⟨n, hn, rfl⟩
    · exact .inl deep
    · have left := unresolved?_eq_none (bound_of_checkBound hl)
      exact .inr ⟨n, by simp [unresolved?, left, hn], rfl⟩

theorem not_ofOperator_of_checkBound (h : e.checkBound view room = .error f) :
    ¬ f.OfOperator := by
  rcases checkBound_error h with rfl | ⟨n, -, rfl⟩
  · exact id
  · intro hk
    cases hk

/-- What evaluation of an expression ends with, against what the check of its names does: only an
operator fails where the check does not fail alike. -/
structure Agrees (r : Except Failure Value) (c : Except Failure Unit) : Prop where
  ok (v : Value) : r = .ok v → c = .ok ()
  failed (f : Failure) : r = .error f → f.OfOperator ∨ c = .error f

namespace Agrees

theorem value (v : Value) : Agrees (.ok v) (.ok ()) :=
  ⟨fun _ _ => rfl, nofun⟩

theorem error (f : Failure) : Agrees (.error f) (.error f) :=
  ⟨nofun, fun _ h => .inr (congrArg Except.error (Except.error.inj h))⟩

theorem operator {r : Except Failure Value} (h : ∀ f, r = .error f → f.OfOperator) :
    Agrees r (.ok ()) :=
  ⟨fun _ _ => rfl, fun f hf => .inl (h f hf)⟩

theorem left {f : Failure} {c : Except Failure Unit} (c' : Except Failure Unit) :
    Agrees (.error f) c →
      Agrees (.error f) (match c with | .error g => .error g | .ok () => c') := by
  -- a check that fails in the left operand does not get to the right one either
  refine fun h => ⟨nofun, fun g hg => ?_⟩
  cases hg
  exact (h.failed f rfl).imp id fun hc => by rw [hc]

end Agrees

theorem evaluate_checkBound (view : View Value) (room : Nat) (e : Expr) :
    Agrees (e.evaluate view room) (e.checkBound view room) := by
  fun_induction evaluate view room e with
  | case1 e => exact .error _
  | case2 room v => exact .value v
  | case3 room n v hn =>
    rw [checkBound, hn]
    exact .value v
  | case4 room n hn =>
    rw [checkBound, hn]
    exact .error _
  | case5 room op e a he ih =>
    rw [he] at ih
    rw [checkBound, ih.ok a rfl]
    exact .operator fun f => Value.ofOperator_of_applyUnary
  | case6 room op e f he ih =>
    rw [he] at ih
    exact ih
  | case7 room l op r f hl ih =>
    rw [hl] at ih
    exact .left _ ih
  | case8 room l op r a hl f hr ihl ihr =>
    rw [hl] at ihl
    rw [hr] at ihr
    rw [checkBound, ihl.ok a rfl]
    exact ihr
  | case9 room l op r a hl b hr ihl ihr =>
    rw [hl] at ihl
    rw [hr] at ihr
    rw [checkBound, ihl.ok a rfl, ihr.ok b rfl]
    exact .operator fun f => Value.ofOperator_of_applyBinary
  | case10 room l op r f hl ih =>
    rw [hl] at ih
    exact .left _ ih
  | case11 room l op r a hl skip f hr ih =>
    rw [hl] at ih
    rw [checkBound, ih.ok a rfl, hr]
    exact .error f
  | case12 room l op r a hl skip hr ih =>
    rw [hl] at ih
    rw [checkBound, ih.ok a rfl, hr]
    exact .value a
  | case13 room l op r a hl goes ihl ihr =>
    rw [hl] at ihl
    rw [checkBound, ihl.ok a rfl]
    exact ihr

section

variable {α : Type} {view other : View α}

theorem checkBound_congr (h : ∀ n ∈ e.names, other n.text = view n.text) :
    e.checkBound other room = e.checkBound view room := by
  fun_induction checkBound view room e with
  | case1 => rfl
  | case2 => rfl
  | case3 room n hn | case4 room n hn =>
    have same : other n.text = view n.text := h n (by simp [names])
    simp [checkBound, same, hn]
  | case5 room op e ih => exact ih h
  | case6 room l op r f hl ih | case8 room l op r f hl ih =>
    have left := ih fun n hn => h n (List.mem_append_left _ hn)
    rw [checkBound, left, hl]
  | case7 room l op r hl ihl ihr | case9 room l op r hl ihl ihr =>
    have left := ihl fun n hn => h n (List.mem_append_left _ hn)
    have right := ihr fun n hn => h n (List.mem_append_right _ hn)
    rw [checkBound, left, hl]
    exact right

theorem evaluate_congr [Operand α] (room : Nat) (h : ∀ n ∈ e.names, other n.text = view n.text) :
    e.evaluate other room = e.evaluate view room := by
  induction e generalizing room with
  | literal v => cases room <;> rfl
  | name n =>
    have same : other n.text = view n.text := h n (by simp [names])
    cases room with
    | zero => rfl
    | succ room => rw [evaluate, evaluate, same]
  | unary op e ih =>
    cases room with
    | zero => rfl
    | succ room => rw [evaluate, evaluate, ih room h]
  | binary l op r ihl ihr =>
    cases room with
    | zero => rfl
    | succ room =>
      rw [evaluate, evaluate, ihl room fun n hn => h n (List.mem_append_left _ hn),
        ihr room fun n hn => h n (List.mem_append_right _ hn)]
  | logical l op r ihl ihr =>
    cases room with
    | zero => rfl
    | succ room =>
      have right : ∀ n ∈ r.names, other n.text = view n.text :=
        fun n hn => h n (List.mem_append_right _ hn)
      rw [evaluate, evaluate, ihl room fun n hn => h n (List.mem_append_left _ hn),
        ihr room right, checkBound_congr right]

end

variable {other : View Value}

def SameBefore (view other : View Value) (names : List Name) : Prop :=
  ∀ n ∈ names.takeWhile fun n => (view n.text).isSome, other n.text = view n.text

theorem SameBefore.all {ns : List Name} (h : SameBefore view other ns)
    (bound : ∀ n ∈ ns, (view n.text).isSome) : ∀ n ∈ ns, other n.text = view n.text := by
  rwa [SameBefore, List.takeWhile_eq_self_iff.2 bound] at h

theorem SameBefore.left {ns ms : List Name} (h : SameBefore view other (ns ++ ms)) :
    SameBefore view other ns := by
  intro n hn
  apply h
  rw [List.takeWhile_append]
  split
  · exact List.mem_append_left _ (List.takeWhile_subset _ hn)
  · exact hn

theorem SameBefore.right {ns ms : List Name} (h : SameBefore view other (ns ++ ms))
    (bound : ∀ n ∈ ns, (view n.text).isSome) : SameBefore view other ms := by
  intro n hn
  apply h
  rw [List.takeWhile_append_of_pos bound]
  exact List.mem_append_right _ hn

theorem bound_of_evaluate {v : Value} (h : e.evaluate view room = .ok v) :
    ∀ n ∈ e.names, (view n.text).isSome :=
  bound_of_checkBound ((evaluate_checkBound view room e).ok v h)

theorem evaluate_ofOperator (h : e.evaluate view room = .error f) (hf : f.OfOperator)
    (same : SameBefore view other e.names) : e.evaluate other room = .error f := by
  fun_induction evaluate view room e with
  | case1 e =>
    cases h
    exact hf.elim
  | case2 => cases h
  | case3 => cases h
  | case4 room n hn =>
    cases h
    cases hf
  | case5 room op e a he ih =>
    have same : SameBefore view other e.names := same
    rw [evaluate, evaluate_congr room (same.all (bound_of_evaluate he)), he]
    exact h
  | case6 room op e g he ih =>
    cases h
    rw [evaluate, ih he same]
  | case7 room l op r g hl ih | case10 room l op r g hl ih =>
    cases h
    rw [evaluate, ih hl (SameBefore.left same)]
  | case8 room l op r a hl g hr ihl ihr =>
    cases h
    have bound := bound_of_evaluate hl
    have left := evaluate_congr room ((SameBefore.left same).all bound)
    rw [evaluate, left, hl, ihr hr (SameBefore.right same bound)]
  | case9 room l op r a hl b hr ihl ihr =>
    have bound := bound_of_evaluate hl
    have left := evaluate_congr room ((SameBefore.left same).all bound)
    have right := evaluate_congr room
      ((SameBefore.right same bound).all (bound_of_evaluate hr))
    rw [evaluate, left, hl, right, hr]
    exact h
  | case11 room l op r a hl skip g hr ih =>
    cases h
    exact absurd hf (not_ofOperator_of_checkBound hr)
  | case12 => cases h
  | case13 room l op r a hl goes ihl ihr =>
    have bound := bound_of_evaluate hl
    have left := evaluate_congr room ((SameBefore.left same).all bound)
    rw [evaluate, left, hl]
    dsimp only
    rw [if_neg goes]
    exact ihr h (SameBefore.right same bound)

/-- The check of names succeeds where evaluation has a value, so all names are bound there, also
those that it skipped. An unbound name that evaluation fails at is the leftmost one, and the check
fails at it as well. Where the check fails so does evaluation, either alike or before at an
operator, whatever the leftmost unbound name and those behind it mean. -/
theorem evaluate_agrees_checkBound (view : View Value) (room : Nat) (e : Expr) :
    (∀ v, e.evaluate view room = .ok v →
      e.checkBound view room = .ok () ∧ ∀ n ∈ e.names, (view n.text).isSome) ∧
    (∀ err, e.evaluate view room = .error (.error err) → err.kind = .undefinedName →
      e.checkBound view room = .error (.error err) ∧
        ∃ n, e.names.find? (fun n => (view n.text).isNone) = some n ∧ err = unboundError n) ∧
    (∀ f, e.checkBound view room = .error f → ∃ g, e.evaluate view room = .error g ∧
      (g = f ∨ g.OfOperator ∧
        ∀ other, SameBefore view other e.names → e.evaluate other room = .error g)) ∧
    (e.checkBound view room = .ok () →
      ∀ err, e.evaluate view room = .error (.error err) → err.kind ≠ .undefinedName) := by
  have agrees := evaluate_checkBound view room e
  refine ⟨fun v hv => ⟨agrees.ok v hv, bound_of_evaluate hv⟩, fun err he hk => ?_, fun f hf => ?_,
    fun hc err he hk => ?_⟩
  · rcases agrees.failed _ he with operator | check
    · exact absurd (hk.symm.trans operator) (by decide)
    · refine ⟨check, ?_⟩
      rcases checkBound_error check with deep | ⟨n, hn, herr⟩
      · cases deep
      · exact ⟨n, unresolved?_eq_find? view e ▸ hn, Failure.error.inj herr⟩
  · cases he : e.evaluate view room with
    | ok v =>
      rw [agrees.ok v he] at hf
      cases hf
    | error g =>
      refine ⟨g, rfl, ?_⟩
      rcases agrees.failed g he with operator | check
      · exact .inr ⟨operator, fun other same => evaluate_ofOperator he operator same⟩
      · exact .inl (Except.error.inj (check.symm.trans hf))
  · rcases agrees.failed _ he with operator | check
    · exact absurd (hk.symm.trans operator) (by decide)
    · rw [hc] at check
      cases check

end Expr

end ScopedScript
