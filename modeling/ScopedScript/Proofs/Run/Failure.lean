import ScopedScript.Statement.Run

namespace ScopedScript

def Failure.Among (kinds : List ErrorKind) : Failure → Prop
  | .error e => e.kind ∈ kinds ∧ e.location.isSome
  | .fault _ => True

def ErrorKind.ofExpr : List ErrorKind := [.undefinedName, .operation]

def ErrorKind.ofRun : List ErrorKind :=
  [.undefinedName, .duplicateName, .conditionType, .operation, .iteration]

theorem Failure.Among.mono {ks ls : List ErrorKind} (h : ks ⊆ ls) {f : Failure}
    (hf : f.Among ks) : f.Among ls := by
  cases f with
  | error e => exact ⟨h hf.1, hf.2⟩
  | fault _ => trivial

@[simp] theorem Failure.among_ofCause {ks : List ErrorKind} {cause : Cause}
    {location : Location} : (Failure.ofCause cause location).Among ks ↔ cause.kind ∈ ks :=
  ⟨fun h => h.1, fun h => ⟨h, rfl⟩⟩

@[simp] theorem Failure.among_fault (ks : List ErrorKind) (f : Fault) :
    (Failure.fault f).Among ks := trivial

/-- A failure of an operator: it has no value for its operands, or a text is repeated too often. -/
def Failure.OfOperator : Failure → Prop
  | .error e => e.kind = .operation
  | .fault .repetitionOverflow | .fault .lengthOverflow | .fault .outOfMemory => True
  | .fault _ => False

theorem TextOperand.ofOperator_of_repeatText {s : String} {count : Nat} {f : Fault}
    (h : repeatText s count = .error f) : (Failure.fault f).OfOperator := by
  unfold repeatText at h
  split at h
  · cases h
    trivial
  · split at h
    · cases h
    · split at h
      · cases h
        trivial
      · split at h
        · cases h
          trivial
        · cases h

theorem TextOperand.ofOperator_of_applyRepetition {op : Token} {s : String} {x : Float}
    {f : Failure} (h : applyRepetition op s (.real x) = .error f) : f.OfOperator := by
  unfold applyRepetition at h
  split at h
  · rename_i overflow ho
    cases ho
  · cases h
    rfl
  · split at h
    · cases h
    · rename_i g hg
      cases h
      exact ofOperator_of_repeatText hg

namespace Value

variable {op : Token} {v w : Value} {f : Failure}

theorem number?_textOperand {n : Numeral} (h : v.textOperand.number? = some n) :
    ∃ x, n = .real x := by
  cases v with
  | number x => exact ⟨x, (Option.some.inj h).symm⟩
  | _ => cases h

theorem ofOperator_of_applyText (h : v.textOperand.apply op w.textOperand = .error f) :
    f.OfOperator := by
  unfold TextOperand.apply at h
  split at h
  case h_3 =>
    split at h
    · rename_i hn
      obtain ⟨x, rfl⟩ := number?_textOperand hn
      exact TextOperand.ofOperator_of_applyRepetition h
    · rename_i hn _ _
      obtain ⟨x, rfl⟩ := number?_textOperand hn
      exact TextOperand.ofOperator_of_applyRepetition h
    · cases h
      rfl
  all_goals
    cases h
    try rfl

theorem ofOperator_of_applyUnary (h : applyUnary op v = .error f) : f.OfOperator := by
  unfold applyUnary at h
  split at h
  · cases h
    rfl
  · split at h
    · cases h
    · cases h
      rfl

theorem ofOperator_of_applyBinary (h : applyBinary op v w = .error f) : f.OfOperator := by
  unfold applyBinary at h
  split at h
  · unfold applyNumbers at h
    split at h
    all_goals
      cases h
      try rfl
  · exact ofOperator_of_applyText h
  · exact ofOperator_of_applyText h
  · cases h
    rfl

end Value

inductive Fault.Arises (settings : Settings) : Fault → Prop
  | repetition {f : Fault} : (Failure.fault f).OfOperator → Arises settings f
  | cap {setting : String} :
    settings.loopCap = some setting → Text.int? setting = none → Arises settings (.loopCap setting)
  | depth (nesting : Nesting) : Arises settings (.tooDeep nesting)

def Failure.Arises (settings : Settings) : Failure → Prop
  | .error _ => True
  | .fault f => f.Arises settings

@[simp] theorem Failure.arises_ofCause (settings : Settings) (cause : Cause)
    (location : Location) : (Failure.ofCause cause location).Arises settings := trivial

@[simp] theorem Failure.arises_tooDeep (settings : Settings) (nesting : Nesting) :
    (Failure.fault (.tooDeep nesting)).Arises settings := .depth nesting

theorem Failure.OfOperator.arises {f : Failure} (h : f.OfOperator) (settings : Settings) :
    f.Arises settings := by
  cases f with
  | error _ => trivial
  | fault _ => exact .repetition h

theorem Settings.cap_arises {settings : Settings} {f : Fault} (h : settings.cap = .error f) :
    f.Arises settings := by
  unfold cap at h
  split at h
  · cases h
  · rename_i setting hs
    split at h
    · cases h
    · rename_i hn
      cases h
      exact .cap hs hn

def FailsWith {α : Type} (kinds : List ErrorKind) (r : Except Failure α) : Prop :=
  ∀ f, r = .error f → f.Among kinds

def FailsUnder {α : Type} (settings : Settings) (r : Except Failure α) : Prop :=
  ∀ f, r = .error f → f.Arises settings

section

variable {α : Type} {ks : List ErrorKind} {settings : Settings}

@[simp] theorem failsWith_ok (a : α) : FailsWith ks (.ok a) := by
  intro f h
  cases h

@[simp] theorem failsWith_error (f : Failure) :
    FailsWith ks (.error f : Except Failure α) ↔ f.Among ks :=
  ⟨fun h => h f rfl, fun h _ e => by cases e; exact h⟩

@[simp] theorem failsUnder_ok (a : α) : FailsUnder settings (.ok a) := by
  intro f h
  cases h

@[simp] theorem failsUnder_error (f : Failure) :
    FailsUnder settings (.error f : Except Failure α) ↔ f.Arises settings :=
  ⟨fun h => h f rfl, fun h _ e => by cases e; exact h⟩

theorem FailsUnder.map {β : Type} {r : Except Failure α} (h : FailsUnder settings r) (g : α → β) :
    FailsUnder settings (r.map g) := by
  intro f hf
  cases r with
  | error _ => exact h f (by cases hf; rfl)
  | ok _ => cases hf

theorem FailsWith.map {β : Type} {r : Except Failure α} (h : FailsWith ks r) (g : α → β) :
    FailsWith ks (r.map g) := by
  intro f hf
  cases r with
  | error _ => exact h f (by cases hf; rfl)
  | ok _ => cases hf

end

namespace TextOperand

theorem applyRepetition_failsWith (op : Token) (s : String) (count : Numeral) :
    FailsWith ErrorKind.ofExpr (applyRepetition op s count) := by
  unfold applyRepetition
  split
  · simp [Failure.ofOverflow]
  · simp [Cause.kind, ErrorKind.ofExpr]
  · split <;> simp

theorem apply_failsWith (op : Token) (v w : TextOperand) :
    FailsWith ErrorKind.ofExpr (v.apply op w) := by
  unfold apply
  split
  case h_3 =>
    split
    · exact applyRepetition_failsWith _ _ _
    · exact applyRepetition_failsWith _ _ _
    · simp [Cause.kind, ErrorKind.ofExpr]
  case h_6 => simp [Cause.kind, ErrorKind.ofExpr]
  all_goals simp

end TextOperand

namespace Value

theorem applyUnary_failsWith (op : Token) (v : Value) :
    FailsWith ErrorKind.ofExpr (applyUnary op v) := by
  unfold applyUnary
  split
  · simp [Token.noPrefix, Cause.kind, ErrorKind.ofExpr]
  · split
    · simp
    · simp [Token.noNegation, Cause.kind, ErrorKind.ofExpr]

theorem applyNumbers_failsWith (op : Token) (x y : Float) :
    FailsWith ErrorKind.ofExpr (applyNumbers op x y) := by
  unfold applyNumbers
  split
  case h_11 => simp [Token.noNumberOperator, Cause.kind, ErrorKind.ofExpr]
  all_goals simp

theorem applyBinary_failsWith (op : Token) (v w : Value) :
    FailsWith ErrorKind.ofExpr (applyBinary op v w) := by
  unfold applyBinary
  split
  · exact applyNumbers_failsWith _ _ _
  · exact TextOperand.apply_failsWith _ _ _
  · exact TextOperand.apply_failsWith _ _ _
  · simp [Token.noOperands, Cause.kind, ErrorKind.ofExpr]

end Value

namespace Expr

theorem among_unboundError (n : Name) :
    (Failure.error (unboundError n)).Among ErrorKind.ofExpr :=
  ⟨by simp [ScriptError.kind, unboundError, Cause.kind, ErrorKind.ofExpr], rfl⟩

theorem checkBound_fails {α : Type} {P : Failure → Prop} (deep : P tooDeep)
    (unbound : ∀ n, P (.error (unboundError n))) (view : View α) (room : Nat) (e : Expr)
    (f : Failure) (h : e.checkBound view room = .error f) : P f := by
  fun_induction checkBound view room e with
  | case1 => cases h; exact deep
  | case2 => cases h
  | case3 => cases h
  | case4 _ n => cases h; exact unbound n
  | case5 _ _ _ ih => exact ih h
  | case6 _ _ _ _ g hg ih => cases h; exact ih hg
  | case7 _ _ _ _ _ _ ih => exact ih h
  | case8 _ _ _ _ g hg ih => cases h; exact ih hg
  | case9 _ _ _ _ _ _ ih => exact ih h

theorem evaluate_fails {P : Failure → Prop} (deep : P tooDeep)
    (unbound : ∀ n, P (.error (unboundError n)))
    (unary : ∀ op v f, Value.applyUnary op v = .error f → P f)
    (binary : ∀ op v w f, Value.applyBinary op v w = .error f → P f) (view : View Value)
    (room : Nat) (e : Expr) (f : Failure) (h : e.evaluate view room = .error f) : P f := by
  fun_induction evaluate view room e with
  | case1 => cases h; exact deep
  | case2 => cases h
  | case3 => cases h
  | case4 _ n => cases h; exact unbound n
  | case5 _ op _ a _ _ => exact unary op a f h
  | case6 _ _ _ g hg ih => cases h; exact ih hg
  | case7 _ _ _ _ g hg ih => cases h; exact ih hg
  | case8 _ _ _ _ _ _ g hg _ ih => cases h; exact ih hg
  | case9 _ _ op _ a _ b _ _ _ => exact binary op a b f h
  | case10 _ _ _ _ g hg ih => cases h; exact ih hg
  | case11 _ _ _ r _ _ _ g hg =>
    cases h
    exact checkBound_fails deep unbound view _ r _ hg
  | case12 => cases h
  | case13 _ _ _ _ _ _ _ _ ih => exact ih h

theorem value_failsWith (view : View Value) (e : Expr) :
    FailsWith ErrorKind.ofExpr (e.value view) :=
  evaluate_fails (by simp [tooDeep]) among_unboundError
    (fun op v => Value.applyUnary_failsWith op v) (fun op v w => Value.applyBinary_failsWith op v w)
    view _ e

theorem value_failsUnder (settings : Settings) (view : View Value) (e : Expr) :
    FailsUnder settings (e.value view) :=
  evaluate_fails (.depth .expression) (fun _ => trivial)
    (fun _ _ _ h => (Value.ofOperator_of_applyUnary h).arises settings)
    (fun _ _ _ _ h => (Value.ofOperator_of_applyBinary h).arises settings) view _ e

end Expr

theorem checkAll_failsWith (view : View Value) (es : List Expr) :
    FailsWith ErrorKind.ofExpr (checkAll view es) := by
  induction es with
  | nil => simp [checkAll]
  | cons e es ih =>
    simp only [checkAll]
    split
    · exact ih
    · rename_i f h
      exact (failsWith_error f).2 (e.value_failsWith view f h)

theorem checkAll_failsUnder (settings : Settings) (view : View Value) (es : List Expr) :
    FailsUnder settings (checkAll view es) := by
  induction es with
  | nil => simp [checkAll]
  | cons e es ih =>
    simp only [checkAll]
    split
    · exact ih
    · rename_i f h
      exact (failsUnder_error f).2 (e.value_failsUnder settings view f h)

theorem testCondition_failsUnder (settings : Settings) (view : View Value) (condition : Expr)
    (cause : Cause) (location : Location) :
    FailsUnder settings (testCondition view condition cause location) := by
  unfold testCondition
  split
  · simp
  · simp
  · rename_i f hf
    exact (failsUnder_error f).2 (condition.value_failsUnder settings view f hf)

theorem testCondition_failsWith (view : View Value) (condition : Expr) (cause : Cause)
    (location : Location) (h : cause.kind = .conditionType) :
    FailsWith ErrorKind.ofRun (testCondition view condition cause location) := by
  unfold testCondition
  split
  · simp
  · simp [h, ErrorKind.ofRun]
  · rename_i f hf
    exact (failsWith_error f).2 ((condition.value_failsWith view f hf).mono (by decide))

theorem conflict?_kind {α : Type} {s : Store α} {id : ScopeId} {name : String} {cause : Cause}
    (h : s.conflict? id name = some cause) : cause.kind = .duplicateName := by
  obtain ⟨a, -, ha⟩ := Option.bind_eq_some_iff.1 h
  unfold Scope.conflict? at ha
  split at ha
  · cases ha
    rfl
  · split at ha
    · cases ha
      rfl
    · cases ha

end ScopedScript
