import ScopedScript.Proofs.Run.Induction
import ScopedScript.Proofs.Store.Rewording

/-!
# Runs of programs in other words

A program in other words runs like the program, in a session that is in these words as well: what it
fails with and what it leaves behind are the same in other words (`Block.run_mirrors`). The traces
may differ, for they are noted under settings of their own and conditions are written out in them;
what is to hold between them is a parameter of the relation.
-/

namespace ScopedScript

variable (w : Rewording)

/-! ## Expressions -/

theorem TextOperand.applyRepetition_reword (op : Token) (s : String) (count : Numeral) :
    applyRepetition (op.relocate w.location) s count =
      (applyRepetition op s count).mapError (Failure.reword w) := by
  unfold applyRepetition
  split
  · rfl
  · rfl
  · split <;> rfl

theorem TextOperand.apply_reword (op : Token) (v v' : TextOperand) :
    v.apply (op.relocate w.location) v' = (v.apply op v').mapError (Failure.reword w) := by
  unfold apply
  rw [Token.relocate_kind]
  split
  case h_3 =>
    split
    · exact applyRepetition_reword w _ _ _
    · exact applyRepetition_reword w _ _ _
    · rfl
  all_goals rfl

namespace Value

theorem applyUnary_reword (op : Token) (v : Value) :
    applyUnary (op.relocate w.location) v = (applyUnary op v).mapError (Failure.reword w) := by
  unfold applyUnary
  rw [Token.relocate_kind]
  split
  · rfl
  · split <;> rfl

theorem applyNumbers_reword (op : Token) (x y : Float) :
    applyNumbers (op.relocate w.location) x y =
      (applyNumbers op x y).mapError (Failure.reword w) := by
  unfold applyNumbers
  rw [Token.relocate_kind]
  split <;> rfl

theorem applyBinary_reword (op : Token) (v v' : Value) :
    applyBinary (op.relocate w.location) v v' =
      (applyBinary op v v').mapError (Failure.reword w) := by
  unfold applyBinary
  split
  · exact applyNumbers_reword w op _ _
  · exact TextOperand.apply_reword w op _ _
  · exact TextOperand.apply_reword w op _ _
  · rfl

end Value

section

variable {w} {view view' : View Value} (h : ∀ n, view' (w.name n) = view n)

namespace Expr

include h

theorem checkBound_reword (room : Nat) (e : Expr) :
    (e.reword w).checkBound view' room =
      (e.checkBound view room).mapError (Failure.reword w) := by
  induction e generalizing room with
  | literal => cases room <;> rfl
  | name n =>
    cases room with
    | zero => rfl
    | succ room =>
      simp only [reword, checkBound, Name.reword, h]
      split <;> rfl
  | unary op e ih =>
    cases room with
    | zero => rfl
    | succ room => exact ih room
  | binary l op r ihl ihr =>
    cases room with
    | zero => rfl
    | succ room =>
      rw [reword, checkBound, checkBound, ihl, ihr]
      cases l.checkBound view room <;> rfl
  | logical l op r ihl ihr =>
    cases room with
    | zero => rfl
    | succ room =>
      rw [reword, checkBound, checkBound, ihl, ihr]
      cases l.checkBound view room <;> rfl

theorem evaluate_reword (room : Nat) (e : Expr) :
    (e.reword w).evaluate view' room =
      (e.evaluate view room).mapError (Failure.reword w) := by
  induction e generalizing room with
  | literal => cases room <;> rfl
  | name n =>
    cases room with
    | zero => rfl
    | succ room =>
      simp only [reword, evaluate, Name.reword, h]
      cases view n.text <;> rfl
  | unary op e ih =>
    cases room with
    | zero => rfl
    | succ room =>
      rw [reword, evaluate, evaluate, ih]
      cases e.evaluate view room with
      | error => rfl
      | ok v => exact Value.applyUnary_reword w op v
  | binary l op r ihl ihr =>
    cases room with
    | zero => rfl
    | succ room =>
      rw [reword, evaluate, evaluate, ihl, ihr]
      cases l.evaluate view room with
      | error => rfl
      | ok v =>
        cases r.evaluate view room with
        | error => rfl
        | ok v' => exact Value.applyBinary_reword w op v v'
  | logical l op r ihl ihr =>
    cases room with
    | zero => rfl
    | succ room =>
      rw [reword, evaluate, evaluate, ihl, ihr, checkBound_reword h]
      cases l.evaluate view room with
      | error => rfl
      | ok v =>
        have same : decides (op.relocate w.location) v = decides op v := rfl
        simp only [Failure.mapError_reword_ok, same]
        split
        · cases r.checkBound view room <;> rfl
        · rfl

theorem value_reword (e : Expr) :
    (e.reword w).value view' = (e.value view).mapError (Failure.reword w) :=
  e.evaluate_reword h depthLimit

end Expr

include h

theorem checkAll_reword (es : List Expr) :
    checkAll view' (es.map (Expr.reword w)) =
      (checkAll view es).mapError (Failure.reword w) := by
  induction es with
  | nil => rfl
  | cons e es ih =>
    rw [List.map_cons, checkAll, checkAll, e.value_reword h, ih]
    cases e.value view <;> rfl

theorem testCondition_reword (condition : Expr) {cause : Cause}
    (nameless : cause.rename w.name = cause) (location : Location) :
    testCondition view' (condition.reword w) cause (w.location location) =
      (testCondition view condition cause location).mapError (Failure.reword w) := by
  have failed : (Failure.ofCause cause location).reword w =
      .ofCause cause (w.location location) := by
    rw [Failure.reword_ofCause, nameless]
  rw [testCondition, testCondition, condition.value_reword h]
  rcases condition.value view with failure | v
  · rfl
  · cases v with
    | bool => rfl
    | _ => exact congrArg Except.error failed.symm

end

namespace Store

theorem value_reword (s : Store Value) (id : ScopeId) (e : Expr) :
    (e.reword w).value ((s.reword w).view id) =
      (e.value (s.view id)).mapError (Failure.reword w) :=
  Expr.value_reword (s.view_reword w id) e

theorem originOf_reword (s : Store Value) (id : ScopeId) (e : Expr) :
    (s.reword w).originOf id (e.reword w) = s.originOf id e := by
  induction e with
  | literal => rfl
  | name n =>
    simp only [Expr.reword, originOf, Name.reword, variableNamed?_reword, Option.map_map]
    rfl
  | unary => rfl
  | binary l op r =>
    simp only [Expr.reword, originOf, value_reword, Token.relocate_kind]
    cases op.kind
    all_goals cases r.value (s.view id) <;> rfl
  | logical l op r ihl ihr =>
    simp only [Expr.reword, originOf, value_reword, ihl, ihr]
    cases l.value (s.view id) <;> rfl

theorem origin_reword (s : Store Value) (id : ScopeId) (e : Expr) (value : Value) :
    (s.reword w).origin id (e.reword w) value = s.origin id e value := by
  rw [origin, origin, originOf_reword]

end Store

/-! ## Machines -/

/-- One machine is the other in other words, and their traces are related. -/
structure Machine.Mirrors (T : Array String → Array String → Prop) (m m' : Machine) : Prop where
  session : m'.toSession = m.toSession.reword w
  trace : T m.trace m'.trace

structure Outcome.Mirrors {α : Type} (T : Array String → Array String → Prop)
    (o o' : Outcome α) : Prop where
  result : o'.result = o.result.mapError (Failure.reword w)
  machine : o.machine.Mirrors w T o'.machine

def Mirrors {α : Type} (T : Array String → Array String → Prop) (run run' : Machine → Outcome α) :
    Prop :=
  ∀ m m' : Machine, m.Mirrors w T m' → (run m).Mirrors w T (run' m')

/-- Under both settings loops have the same cap, and traces that are related still are after notes
of the same text or of a condition in other words. -/
structure Rewording.Traced (T : Array String → Array String → Prop)
    (settings settings' : Settings) : Prop where
  cap : settings'.cap = settings.cap
  line {m m' : Machine} (line : String) : T m.trace m'.trace →
    T (m.note settings line).trace (m'.note settings' line).trace
  condition {m m' : Machine} (e : Expr) : T m.trace m'.trace →
    T (m.note settings ("while " ++ e.render)).trace
      (m'.note settings' ("while " ++ (e.reword w).render)).trace

variable {w} {T : Array String → Array String → Prop} {settings settings' : Settings}

namespace Machine.Mirrors

variable {m m' : Machine}

theorem exists_eq (h : m.Mirrors w T m') :
    ∃ notes, m' = ⟨m.toSession.reword w, notes⟩ ∧ T m.trace notes :=
  ⟨m'.trace, congrArg (Machine.mk · m'.trace) h.session, h.trace⟩

theorem current (h : m.Mirrors w T m') : m'.current = m.current := by
  rw [h.session]
  rfl

theorem note (h : m.Mirrors w T m') {line line' : String}
    (traced : T (m.note settings line).trace (m'.note settings' line').trace) :
    (m.note settings line).Mirrors w T (m'.note settings' line') :=
  ⟨by rw [note_toSession, note_toSession, h.session], traced⟩

theorem enter (h : m.Mirrors w T m') : m.enter.Mirrors w T m'.enter := by
  obtain ⟨notes, rfl, trace⟩ := h.exists_eq
  refine ⟨?_, trace⟩
  simp [Machine.enter, Session.enter, Session.reword, Store.push_reword]

theorem inside (h : m.Mirrors w T m') (template : ScopeId) :
    (m.inside template).Mirrors w T (m'.inside template) := by
  obtain ⟨notes, rfl, trace⟩ := h.exists_eq
  refine ⟨?_, trace⟩
  simp [Machine.inside, Session.reword, Store.copy_reword]

end Machine.Mirrors

theorem Outcome.Mirrors.cases {α : Type} {o o' : Outcome α} (h : o.Mirrors w T o') :
    (∃ f n n', o = ⟨.error f, n⟩ ∧ o' = ⟨.error (f.reword w), n'⟩ ∧ n.Mirrors w T n') ∨
      ∃ a n n', o = ⟨.ok a, n⟩ ∧ o' = ⟨.ok a, n'⟩ ∧ n.Mirrors w T n' := by
  obtain ⟨result, n⟩ := o
  obtain ⟨result', n'⟩ := o'
  obtain ⟨same, machine⟩ := h
  cases result with
  | error f => exact .inl ⟨f, n, n', rfl, congrArg (Outcome.mk · n') same, machine⟩
  | ok a => exact .inr ⟨a, n, n', rfl, congrArg (Outcome.mk · n') same, machine⟩

theorem Outcome.Mirrors.leave {α : Type} {o o' : Outcome α} (h : o.Mirrors w T o')
    (location : Location) : (o.leave location).Mirrors w T (o'.leave (w.location location)) := by
  obtain ⟨result, m⟩ := o
  obtain ⟨result', m'⟩ := o'
  obtain ⟨rfl, machine⟩ := h
  obtain ⟨notes, rfl, trace⟩ := machine.exists_eq
  simp only [Outcome.leave, Session.leave, Session.reword, Store.getElem?_reword]
  cases m.store.scopes[m.current]? with
  | none => exact ⟨rfl, rfl, trace⟩
  | some a =>
    simp only [Option.map_some, Option.bind_some, Scope.reword]
    cases a.parent <;> exact ⟨rfl, rfl, trace⟩

theorem Mirrors.within {α : Type} {run run' : Machine → Outcome α} (h : Mirrors w T run run')
    (template : ScopeId) :
    Mirrors w T (fun m => m.within template run) (fun m => m.within template run') := by
  intro m m' hm
  have inner := h _ _ (hm.inside template)
  obtain ⟨notes, rfl, trace⟩ := hm.exists_eq
  exact ⟨inner.result,
    congrArg (fun s : Session => { s with current := m.current }) inner.machine.session,
    inner.machine.trace⟩

/-! ## Statements -/

namespace Statement

theorem noteStart_mirrors (t : w.Traced T settings settings') (s : Statement) {m m' : Machine}
    (h : m.Mirrors w T m') :
    (noteStart settings s m).Mirrors w T (noteStart settings' (s.reword w) m') := by
  rw [noteStart, noteStart, s.form_reword]
  refine h.note ?_
  rw [h.session]
  simp only [Session.reword, Store.ordinal_reword]
  exact t.line _ h.trace

theorem runDeclare_mirrors (name : Name) (value : Value) (origin : Origin) :
    Mirrors w T (runDeclare name value origin) (runDeclare (name.reword w) value origin) := by
  intro m m' h
  obtain ⟨notes, rfl, trace⟩ := h.exists_eq
  simp only [runDeclare, Session.reword, Name.reword, Store.conflict?_reword,
    Store.addVariable_reword]
  cases m.store.conflict? m.current name.text <;> exact ⟨rfl, rfl, trace⟩

theorem runAssign_mirrors (name : Name) (e : Expr) :
    Mirrors w T (runAssign name e) (runAssign (name.reword w) (e.reword w)) := by
  intro m m' h
  obtain ⟨notes, rfl, trace⟩ := h.exists_eq
  simp only [runAssign, Session.reword, Name.reword, Store.variableOwner?_reword,
    Store.value_reword]
  cases m.store.variableOwner? m.current name.text with
  | none => exact ⟨rfl, rfl, trace⟩
  | some owner =>
    cases e.value (m.store.view m.current) with
    | error => exact ⟨rfl, rfl, trace⟩
    | ok v =>
      simp only [Failure.mapError_reword_ok, Store.origin_reword, Store.write_reword]
      exact ⟨rfl, rfl, trace⟩

theorem runMethod_mirrors (name : Name) (parameters : List String) (body : Block) :
    Mirrors w T (runMethod name parameters body)
      (runMethod (name.reword w) (parameters.map w.name) (Block.reword w body)) := by
  intro m m' h
  obtain ⟨notes, entered, trace⟩ := h.enter.exists_eq
  rw [runMethod, runMethod, h.current, entered]
  refine Outcome.Mirrors.leave ?_ name.location
  simp only [addMethod, Session.reword, Name.reword, Store.conflict?_reword]
  cases m.enter.store.conflict? m.current name.text with
  | some cause => exact ⟨rfl, rfl, trace⟩
  | none =>
    have added := m.enter.store.addMethod_reword w m.current
      ⟨name.text, parameters, body, m.enter.current⟩
    exact ⟨rfl, congrArg (fun s => { m.enter.toSession with store := s }) added, trace⟩

theorem iterate_mirrors {body body' : Machine → Outcome Unit}
    {again again' : Store Value → Except Failure Bool} (hb : Mirrors w T body body')
    (ha : ∀ s, again' (s.reword w) = (again s).mapError (Failure.reword w))
    (exceeded : Failure) (left : Nat) :
    Mirrors w T (iterate body again exceeded left)
      (iterate body' again' (exceeded.reword w) left) := by
  induction left with
  | zero => exact fun m m' h => ⟨rfl, h⟩
  | succ left ih =>
    intro m m' h
    rw [iterate, iterate]
    rcases (hb m m' h).cases with ⟨f, n, n', ho, ho', hn⟩ | ⟨⟨⟩, n, n', ho, ho', hn⟩
    · rw [ho, ho']
      exact ⟨rfl, hn⟩
    · have tested : again' n'.store = (again n.store).mapError (Failure.reword w) := by
        rw [hn.session]
        exact ha n.store
      rw [ho, ho']
      dsimp only
      rw [tested]
      rcases again n.store with f | _ | _
      · exact ⟨rfl, hn⟩
      · exact ⟨rfl, hn⟩
      · exact ih n n' hn

theorem rounds_mirrors (cap : Int) (location : Location) (condition : Expr)
    {body body' : Machine → Outcome Unit} (h : Mirrors w T body body') :
    Mirrors w T (rounds cap location condition body)
      (rounds cap (w.location location) (condition.reword w) body') := by
  intro m m' hm
  rw [rounds, rounds, hm.enter.current, hm.current]
  exact iterate_mirrors (h.within m.enter.current)
    (fun s => testCondition_reword (s.view_reword w m.current) condition rfl location)
    _ cap.toNat m.enter m'.enter hm.enter

theorem runLoop_mirrors (t : w.Traced T settings settings') (location : Location)
    (condition : Expr) {body body' : Machine → Outcome Unit} (h : Mirrors w T body body') :
    Mirrors w T (runLoop settings location condition body)
      (runLoop settings' (w.location location) (condition.reword w) body') := by
  intro m m' hm
  have noted := hm.note (t.condition condition hm.trace)
  unfold runLoop
  generalize m.note settings _ = n, m'.note settings' _ = n' at noted
  rw [t.cap]
  cases settings.cap with
  | error x => exact ⟨rfl, noted⟩
  | ok cap =>
    have left := (rounds_mirrors cap location condition h n n' noted).leave location
    rw [rounds, rounds] at left
    dsimp only
    rcases left.cases with ⟨f, k, k', ho, ho', hk⟩ | ⟨rest, k, k', ho, ho', hk⟩
    · rw [ho, ho']
      exact ⟨rfl, hk⟩
    · rw [ho, ho']
      exact ⟨rfl, hk.note (t.line _ hk.trace)⟩

theorem runCall_mirrors {invoke invoke' : Method → Machine → Outcome Unit}
    (hi : ∀ method, Mirrors w T (invoke method) (invoke' (method.reword w))) (name : Name)
    (arguments : List Expr) :
    Mirrors w T (runCall invoke name arguments)
      (runCall invoke' (name.reword w) (arguments.map (Expr.reword w))) := by
  intro m m' h
  have callee : m'.store.methodNamed? m'.current (name.reword w).text =
      (m.store.methodNamed? m.current name.text).map (Method.reword w) := by
    rw [h.session]
    exact m.store.methodNamed?_reword w m.current name.text
  have checked : checkAll (m'.store.view m'.current) (arguments.map (Expr.reword w)) =
      (checkAll (m.store.view m.current) arguments).mapError (Failure.reword w) := by
    rw [h.session]
    exact checkAll_reword (m.store.view_reword w m.current) arguments
  rw [runCall, runCall, callee, checked]
  cases m.store.methodNamed? m.current name.text with
  | none => exact ⟨rfl, h⟩
  | some method =>
    rcases checkAll (m.store.view m.current) arguments with failure | ⟨⟩
    · exact ⟨rfl, h⟩
    · exact hi method m m' h

theorem testCondition_mirrors {m m' : Machine} (h : m.Mirrors w T m') (condition : Expr)
    {cause : Cause} (nameless : cause.rename w.name = cause) (location : Location) :
    testCondition (m'.store.view m'.current) (condition.reword w) cause (w.location location) =
      (testCondition (m.store.view m.current) condition cause location).mapError
        (Failure.reword w) := by
  rw [h.session]
  exact testCondition_reword (m.store.view_reword w m.current) condition nameless location

mutual

theorem run_mirrors (t : w.Traced T settings settings')
    {invoke invoke' : Method → Machine → Outcome Unit}
    (hi : ∀ method, Mirrors w T (invoke method) (invoke' (method.reword w))) :
    ∀ s : Statement, Mirrors w T (run settings invoke s) (run settings' invoke' (s.reword w))
  | .declare name none, m, m', h => by
    have start := noteStart_mirrors t (.declare name none) h
    rw [run, reword, Option.map_none, run]
    exact runDeclare_mirrors name .null .division _ _ start
  | .declare name (some e), m, m', h => by
    have start := noteStart_mirrors t (.declare name (some e)) h
    rw [reword, Option.map_some] at start ⊢
    rw [run, run]
    generalize noteStart settings _ m = n, noteStart settings' _ m' = n' at start
    obtain ⟨notes, rfl, trace⟩ := start.exists_eq
    have value := n.store.value_reword w n.current e
    have origin := n.store.origin_reword w n.current e
    simp only [Session.reword, value, origin]
    cases e.value (n.store.view n.current) with
    | error => exact ⟨rfl, rfl, trace⟩
    | ok v => exact runDeclare_mirrors name v _ _ _ ⟨rfl, trace⟩
  | .method name parameters body, m, m', h => by
    rw [run, reword, run]
    exact runMethod_mirrors name parameters body _ _
      (noteStart_mirrors t (.method name parameters body) h)
  | .assign name e, m, m', h => by
    rw [run, reword, run]
    exact runAssign_mirrors name e _ _ (noteStart_mirrors t (.assign name e) h)
  | .call name arguments, m, m', h => by
    rw [run, reword, run]
    exact runCall_mirrors hi name arguments _ _ (noteStart_mirrors t (.call name arguments) h)
  | .branch location condition body, m, m', h => by
    have start := noteStart_mirrors t (.branch location condition body) h
    rw [reword] at start ⊢
    rw [run, run]
    generalize noteStart settings _ m = n, noteStart settings' _ m' = n' at start
    rw [testCondition_mirrors start condition rfl]
    rcases testCondition (n.store.view n.current) condition _ location with f | _ | _
    · exact ⟨rfl, start⟩
    · exact ⟨rfl, start⟩
    · exact runAll_mirrors t hi body n n' start
  | .loop location condition body, m, m', h => by
    have start := noteStart_mirrors t (.loop location condition body) h
    rw [reword] at start ⊢
    rw [run, run]
    generalize noteStart settings _ m = n, noteStart settings' _ m' = n' at start
    rw [testCondition_mirrors start condition rfl]
    rcases testCondition (n.store.view n.current) condition _ location with f | _ | _
    · exact ⟨rfl, start⟩
    · exact ⟨rfl, start⟩
    · exact runLoop_mirrors t location condition (runAll_mirrors t hi body) n n' start

theorem runAll_mirrors (t : w.Traced T settings settings')
    {invoke invoke' : Method → Machine → Outcome Unit}
    (hi : ∀ method, Mirrors w T (invoke method) (invoke' (method.reword w))) :
    ∀ b : Block, Mirrors w T (runAll settings invoke b)
      (runAll settings' invoke' (Block.reword w b))
  | [], m, m', h => by
    rw [Block.reword, runAll, runAll]
    exact ⟨rfl, h⟩
  | s :: ss, m, m', h => by
    rw [Block.reword, runAll, runAll]
    rcases (run_mirrors t hi s m m' h).cases with ⟨f, n, n', ho, ho', hn⟩ | ⟨⟨⟩, n, n', ho, ho', hn⟩
    · rw [ho, ho']
      exact ⟨rfl, hn⟩
    · rw [ho, ho']
      exact runAll_mirrors t hi ss n n' hn

end

end Statement

theorem Method.invoke_mirrors (t : w.Traced T settings settings') (depth : Nat) (method : Method) :
    Mirrors w T (invoke settings depth method) (invoke settings' depth (method.reword w)) := by
  induction depth generalizing method with
  | zero => exact fun m m' h => ⟨rfl, h⟩
  | succ depth ih => exact (Statement.runAll_mirrors t ih method.body).within method.template

theorem Block.run_mirrors (t : w.Traced T settings settings') (program : Block) :
    Mirrors w T (Block.run settings program) (Block.run settings' (Block.reword w program)) :=
  Statement.runAll_mirrors t (Method.invoke_mirrors t Method.callDepth) program

end ScopedScript
