import ScopedScript.Plain.Format
import ScopedScript.Proofs.Expr.RoundTrip
import ScopedScript.Proofs.Plain.Json
import ScopedScript.Proofs.Session.History

namespace ScopedScript

open Plain.Json (IsText)

namespace Plain

theorem isFinite_ofValue {v : Value} : (ofValue v).IsFinite ↔ v.isFinite := by
  cases v with
  | number x =>
    simp only [ofValue, Value.isFinite]
    cases hw : Number.whole? x with
    | none => rfl
    | some n =>
      refine iff_of_true trivial (Number.isFinite_iff_parts.2 ?_)
      rw [Number.whole?] at hw
      cases hp : Number.parts x with
      | nan => cases (hp ▸ hw : Number.Parts.nan.whole? = some n)
      | infinite negative => cases (hp ▸ hw : (Number.Parts.infinite negative).whole? = some n)
      | finite negative mantissa exponent => exact ⟨negative, mantissa, exponent, rfl⟩
  | _ => exact iff_of_true trivial rfl

theorem isFinite_ofBindings {bindings : List (String × Value)} :
    (ofBindings bindings).IsFinite ↔ ∀ b ∈ bindings, b.2.isFinite := by
  induction bindings with
  | nil => exact iff_of_true trivial nofun
  | cons b bindings ih =>
    rw [List.forall_mem_cons, ← isFinite_ofValue, ← ih]
    rfl

end Plain

namespace Session

theorem bindings_eq_rootVars (s : Session) :
    s.bindings = s.rootVars.map fun v => (v.name, v.value) := by
  rw [bindings, rootVars, Store.snapshot]
  cases s.store.scopes[s.root]? <;> rfl

theorem exists_of_answered {α : Type} {f : Answer → α} {result : Except Fault Answer} {x : α}
    (h : result.toOption.map f = some x) : ∃ a, result = .ok a ∧ f a = x := by
  cases result with
  | error _ => cases h
  | ok a => exact ⟨a, rfl, Option.some.inj h⟩

/-- What is answered to a source is a text of JSON, on one line or on many, exactly where no
variable of the outermost scope is an infinity or a NaN afterwards. -/
theorem handle_isText_iff (s : Session) (settings : Settings) (source : String) (pretty : Bool)
    {a : Answer} (h : (s.handle settings source).1 = .ok a) :
    IsText (Format.json.write pretty (.ofBindings a.bindings)).toList ↔
      ∀ v ∈ (s.handle settings source).2.1.rootVars, v.value.isFinite := by
  have bindings : a.bindings = (s.handle settings source).2.1.bindings := bindings_of_answer h
  have written := Plain.isText_toJson_iff pretty (.ofBindings a.bindings)
  rw [Plain.isFinite_ofBindings, bindings, bindings_eq_rootVars, List.forall_mem_map] at written
  rw [bindings, bindings_eq_rootVars]
  exact written

theorem handle_isText_escaped :
    let source := "var a = \"x\\y\nz\"; var b = -5 / 2; var c = 1 / 40000;"
    let json := "\x7b\"a\": \"x\\\\y\\nz\", \"b\": -2.5, \"c\": 2.5e-05\x7d"
    ∃ a, (start.handle {} source).1 = .ok a ∧ a.error = none ∧
      Format.json.write false (.ofBindings a.bindings) = json ∧ IsText json.toList := by
  intro source json
  have finite : ∀ v ∈ (start.handle {} source).2.1.rootVars, v.value.isFinite := by decide +kernel
  have written : (start.handle {} source).1.toOption.map (fun a =>
      (a.error, Format.json.write false (.ofBindings a.bindings))) = some (none, json) := by
    decide +kernel
  obtain ⟨a, answer, same⟩ := exists_of_answered written
  obtain ⟨success, text⟩ := Prod.mk.inj same
  exact ⟨a, answer, success, text, text ▸ (handle_isText_iff start {} source false answer).2 finite⟩

/-- A division by zero succeeds, and is written as a word that JSON does not have. -/
theorem quotient_not_isText :
    ∃ a, (start.handle {} "var x = 1 / 0;").1 = .ok a ∧ a.error = none ∧
      Format.json.write false (.ofBindings a.bindings) = "\x7b\"x\": Infinity\x7d" ∧
      ∀ pretty, ¬ IsText (Format.json.write pretty (.ofBindings a.bindings)).toList := by
  have run : (start.handle {} "var x = 1 / 0;").1.toOption.map (fun a => (a.error, a.bindings)) =
      some (none, [("x", .number (1 / 0))]) := by decide +kernel
  obtain ⟨a, answer, same⟩ := exists_of_answered run
  obtain ⟨success, bindings⟩ := Prod.mk.inj same
  refine ⟨a, answer, success, ?_, fun pretty text => ?_⟩
  · rw [bindings]
    decide +kernel
  · have finite := (Plain.isText_toJson_iff pretty _).1 text
    rw [Plain.isFinite_ofBindings, bindings] at finite
    exact absurd (finite _ (.head _)) (by decide +kernel)

end Session

end ScopedScript
