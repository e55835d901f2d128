import Mathlib.Data.List.Basic
import ScopedScript.Proofs.Run.Control
import ScopedScript.Proofs.Run.Steady

namespace ScopedScript

open Statement

def tooManyCalls : Failure := .fault (.tooDeep .calls)

def Bounded {α : Type} (r : Except Failure α) : Prop := r ≠ .error tooManyCalls

section

variable {α β : Type}

@[simp] theorem bounded_ok (a : α) : Bounded (.ok a : Except Failure α) := by
  intro h
  cases h

@[simp] theorem bounded_error (f : Failure) :
    Bounded (.error f : Except Failure α) ↔ f ≠ tooManyCalls :=
  ⟨fun h e => h (by rw [e]), fun h e => h (Except.error.inj e)⟩

@[simp] theorem ofCause_ne_tooManyCalls (cause : Cause) (location : Location) :
    Failure.ofCause cause location ≠ tooManyCalls := by
  intro h
  cases h

theorem Bounded.of_error {r : Except Failure α} {f : Failure} (h : Bounded r)
    (hf : r = .error f) : Bounded (.error f : Except Failure β) :=
  (bounded_error f).2 fun same => h (hf.trans (congrArg Except.error same))

theorem bounded_map {r : Except Failure α} {g : α → β} : Bounded (r.map g) ↔ Bounded r := by
  cases r with
  | error f => exact (bounded_error f).trans (bounded_error f).symm
  | ok a => exact ⟨fun _ => bounded_ok a, fun _ => bounded_ok (g a)⟩

end

/-! ## What statements do themselves -/

theorem Failure.OfOperator.ne_tooManyCalls {f : Failure} (h : f.OfOperator) : f ≠ tooManyCalls := by
  rintro rfl
  exact h

theorem Expr.value_bounded (view : View Value) (e : Expr) : Bounded (e.value view) := by
  intro h
  refine e.evaluate_fails (P := (· ≠ tooManyCalls)) ?_ ?_ ?_ ?_ view _ _ h rfl
  · rintro ⟨⟩
  · rintro n ⟨⟩
  · exact fun _ _ _ hf => (Value.ofOperator_of_applyUnary hf).ne_tooManyCalls
  · exact fun _ _ _ _ hf => (Value.ofOperator_of_applyBinary hf).ne_tooManyCalls

theorem testCondition_bounded (view : View Value) (condition : Expr) (cause : Cause)
    (location : Location) : Bounded (testCondition view condition cause location) := by
  unfold testCondition
  split
  · exact bounded_ok _
  · simp
  · rename_i f hf
    exact (condition.value_bounded view).of_error hf

theorem checkAll_bounded (view : View Value) (es : List Expr) : Bounded (checkAll view es) := by
  induction es with
  | nil => exact bounded_ok _
  | cons e es ih =>
    rw [checkAll]
    split
    · exact ih
    · rename_i f hf
      exact (e.value_bounded view).of_error hf

theorem runDeclare_bounded (name : Name) (value : Value) (origin : Origin) (m : Machine) :
    Bounded (runDeclare name value origin m).result := by
  unfold runDeclare
  split <;> simp

theorem runAssign_bounded (name : Name) (e : Expr) (m : Machine) :
    Bounded (runAssign name e m).result := by
  unfold runAssign
  split
  · simp
  · split
    · rename_i f hf
      exact (e.value_bounded _).of_error hf
    · exact bounded_ok _

theorem Outcome.leave_bounded {α : Type} {o : Outcome α} (h : Bounded o.result)
    (location : Location) : Bounded (o.leave location).result := by
  unfold leave
  split
  · exact h
  · rintro ⟨⟩

theorem runMethod_bounded (name : Name) (parameters : List String) (body : Block) (m : Machine) :
    Bounded (runMethod name parameters body m).result := by
  refine Outcome.leave_bounded ?_ name.location
  unfold addMethod
  split <;> simp

theorem Settings.cap_bounded {settings : Settings} {f : Fault} (h : settings.cap = .error f) :
    Failure.fault f ≠ tooManyCalls := by
  rintro ⟨⟩
  unfold cap at h
  split at h
  · cases h
  · split at h <;> cases h

/-! ## Steps -/

namespace Config

variable {settings : Settings} {α β : Type} {bound : Nat} {c c' c'' : Config}

/-- A run from a configuration has a result, and the steps lead to another one; or the run fails
because its calls are nested too deep, and the steps lead to where they are nested deeper than the
bound. -/
def Follows (settings : Settings) (bound : Nat) (c : Config) (r : Except Failure α)
    (c' : Config) : Prop :=
  (Bounded r ∧ Steps settings c c') ∨
    (r = .error tooManyCalls ∧ ∃ k, Steps settings c k ∧ bound < k.callDepth)

namespace Follows

theorem refl {r : Except Failure α} (h : Bounded r) : Follows settings bound c r c :=
  .inl ⟨h, .refl⟩

theorem head {r : Except Failure α} (hs : step settings c = some c')
    (h : Follows settings bound c' r c'') : Follows settings bound c r c'' := by
  rcases h with ⟨hr, steps⟩ | ⟨hr, k, steps, deeper⟩
  · exact .inl ⟨hr, .head hs steps⟩
  · exact .inr ⟨hr, k, .head hs steps, deeper⟩

theorem tail {r : Except Failure α} (h : Follows settings bound c r c')
    (hs : step settings c' = some c'') : Follows settings bound c r c'' := by
  rcases h with ⟨hr, steps⟩ | deeper
  · exact .inl ⟨hr, .tail steps hs⟩
  · exact .inr deeper

theorem trans {a : α} {r : Except Failure β} (h : Follows settings bound c (.ok a) c')
    (h' : Follows settings bound c' r c'') : Follows settings bound c r c'' := by
  rcases h with ⟨-, steps⟩ | ⟨hr, -⟩
  · rcases h' with ⟨hr, steps'⟩ | ⟨hr, k, steps', deeper⟩
    · exact .inl ⟨hr, .trans steps steps'⟩
    · exact .inr ⟨hr, k, .trans steps steps', deeper⟩
  · cases hr

theorem map {r : Except Failure α} (h : Follows settings bound c r c') (g : α → β) :
    Follows settings bound c (r.map g) c' := by
  rcases h with ⟨hr, steps⟩ | ⟨rfl, deeper⟩
  · exact .inl ⟨bounded_map.2 hr, steps⟩
  · exact .inr ⟨rfl, deeper⟩

end Follows

theorem step_branch (o : Outcome Unit) (rest : Block) (around : List Waiting) :
    step settings (behind o [] (.branch rest :: around)) = some (behind o rest around) := by
  rcases o with ⟨f | ⟨⟩, m⟩ <;> rfl

theorem step_call (o : Outcome Unit) (outer : ScopeId) (rest : Block) (around : List Waiting) :
    step settings (behind o [] (.call outer rest :: around)) =
      some (behind { o with machine := { o.machine with current := outer } } rest around) := by
  rcases o with ⟨f | ⟨⟩, m⟩ <;> rfl

end Config

open Config

/-! ## Runs beside steps -/

section

variable {settings : Settings} {depth : Nat} {invoke : Method → Machine → Outcome Unit}

def BodyFollows (settings : Settings) (depth : Nat) (b : Block) (body : Machine → Outcome Unit) :
    Prop :=
  ∀ (m : Machine) (around : List Waiting),
    Follows settings (depth + around.countP isCall) ⟨.ok b, m, around⟩ (body m).result
      (behind (body m) [] around)

def InvokeFollows (settings : Settings) (depth : Nat)
    (invoke : Method → Machine → Outcome Unit) : Prop :=
  ∀ (callee : Method) (m : Machine) (rest : Block) (around : List Waiting),
    Follows settings (depth + around.countP isCall)
      ⟨.ok callee.body, m.inside callee.template, .call m.current rest :: around⟩
      (invoke callee m).result (behind (invoke callee m) rest around)

theorem iterate_follows (loop : ActiveLoop) {body : Machine → Outcome Unit}
    (hb : BodyFollows settings depth loop.body body) (rest : Block) (around : List Waiting)
    (left : Nat) (m : Machine) (hm : m.current = loop.template) :
    let o := iterate (fun n => n.within loop.template body)
      (fun store => testCondition (store.view loop.scope) loop.condition .loopCondition
        loop.location)
      (.ofCause (.iterationLimit loop.cap) loop.location) left m
    Follows settings (depth + around.countP isCall) (beginRound settings loop left m rest around)
      o.result (behindLoop settings loop o rest around) := by
  induction left generalizing m with
  | zero => exact .refl ((bounded_error _).2 (ofCause_ne_tooManyCalls _ _))
  | succ left ih =>
    have inner := hb (m.inside loop.template) (.round loop left rest :: around)
    have round : m.within loop.template body = ⟨(body (m.inside loop.template)).result,
        { (body (m.inside loop.template)).machine with current := loop.template }⟩ := by
      rw [← hm]
      rfl
    rw [iterate, round]
    generalize body (m.inside loop.template) = p at inner
    rcases p with ⟨f | ⟨⟩, n⟩
    · exact (inner.map fun _ => 0).tail rfl
    · refine inner.trans (.head rfl ?_)
      dsimp only [resume]
      rcases ht : testCondition (n.store.view loop.scope) loop.condition .loopCondition
        loop.location with g | b
      · exact .refl ((testCondition_bounded _ _ _ _).of_error ht)
      · cases b with
        | false => exact .refl (bounded_ok _)
        | true => exact ih _ rfl

theorem runLoop_follows {b : Block} {body : Machine → Outcome Unit}
    (hb : BodyFollows settings depth b body) (hs : ∀ m, Steady (some m.current) m (body m))
    (location : Location) (condition : Expr) (m : Machine) (rest : Block)
    (around : List Waiting) :
    let o := runLoop settings location condition body m
    Follows settings (depth + around.countP isCall)
      (beginLoop settings location condition b m rest around) o.result (behind o rest around) := by
  intro o
  simp only [o, runLoop, beginLoop]
  generalize m.note settings ("while " ++ condition.render) = n
  rcases hc : settings.cap with f | cap
  · exact .refl ((bounded_error _).2 (Settings.cap_bounded hc))
  · have follows := iterate_follows ⟨location, condition, b, cap, n.current, n.enter.current⟩ hb
      rest around cap.toNat n.enter rfl
    have steady := rounds_steady cap location condition hs n
    have left := Outcome.leave_eq n location steady.current steady.frame
    rw [rounds] at left
    dsimp only at follows ⊢
    simp only [behindLoop, left] at follows
    rw [left]
    generalize iterate _ _ _ _ _ = p at follows ⊢
    rcases p with ⟨f | left, k⟩
    · exact follows.map fun _ => ()
    · exact follows.map fun _ => ()

mutual

theorem run_follows (hi : InvokeFollows settings depth invoke)
    (hs : InvokeKept (fun m o => Steady (some m.current) m o) invoke) :
    ∀ (s : Statement) (m : Machine) (rest : Block) (around : List Waiting),
      Follows settings (depth + around.countP isCall) ⟨.ok (s :: rest), m, around⟩
        (run settings invoke s m).result (behind (run settings invoke s m) rest around)
  | .declare name none, m, rest, around => by
    rw [run]
    exact .head rfl (.refl (runDeclare_bounded name _ _ _))
  | .declare name (some e), m, rest, around => by
    rw [run]
    refine .head rfl ?_
    dsimp only [execute]
    generalize noteStart settings _ m = n
    rcases he : e.value (n.store.view n.current) with f | value
    · exact .refl ((e.value_bounded _).of_error he)
    · exact .refl (runDeclare_bounded name _ _ _)
  | .method name parameters body, m, rest, around => by
    rw [run]
    exact .head rfl (.refl (runMethod_bounded name parameters body _))
  | .assign name e, m, rest, around => by
    rw [run]
    exact .head rfl (.refl (runAssign_bounded name e _))
  | .call name arguments, m, rest, around => by
    rw [run]
    refine .head rfl ?_
    dsimp only [execute, runCall]
    generalize noteStart settings _ m = n
    cases n.store.methodNamed? n.current name.text with
    | none => exact .refl (by simp)
    | some callee =>
      dsimp only
      rcases ha : checkAll (n.store.view n.current) arguments with f | ⟨⟩
      · exact .refl ((checkAll_bounded _ arguments).of_error ha)
      · exact hi callee n rest around
  | .branch location condition body, m, rest, around => by
    rw [run]
    refine .head rfl ?_
    dsimp only [execute]
    generalize noteStart settings _ m = n
    rcases ht : testCondition (n.store.view n.current) condition _ location with f | _ | _
    · exact .refl ((testCondition_bounded _ _ _ _).of_error ht)
    · exact .refl (bounded_ok _)
    · exact (runAll_follows hi hs body n (.branch rest :: around)).tail (step_branch _ _ _)
  | .loop location condition body, m, rest, around => by
    rw [run]
    refine .head rfl ?_
    dsimp only [execute]
    generalize noteStart settings _ m = n
    rcases ht : testCondition (n.store.view n.current) condition _ location with f | _ | _
    · exact .refl ((testCondition_bounded _ _ _ _).of_error ht)
    · exact .refl (bounded_ok _)
    · exact runLoop_follows (runAll_follows hi hs body)
        ((kept_steady settings).runAll_of hs body) location condition n rest around

theorem runAll_follows (hi : InvokeFollows settings depth invoke)
    (hs : InvokeKept (fun m o => Steady (some m.current) m o) invoke) :
    ∀ b : Block, BodyFollows settings depth b (runAll settings invoke b)
  | [], m, around => by
    rw [runAll]
    exact .refl (bounded_ok _)
  | s :: ss, m, around => by
    rw [runAll]
    have first := run_follows hi hs s m ss around
    generalize run settings invoke s m = p at first ⊢
    rcases p with ⟨f | ⟨⟩, n⟩
    · exact first
    · exact first.trans (runAll_follows hi hs ss n around)

end

theorem invoke_follows (settings : Settings) (depth : Nat) :
    InvokeFollows settings depth (Method.invoke settings depth) := by
  induction depth with
  | zero =>
    intro callee m rest around
    refine .inr ⟨rfl, _, .refl, ?_⟩
    show 0 + around.countP isCall < (Waiting.call m.current rest :: around).countP isCall
    simp [List.countP_cons, isCall]
  | succ depth ih =>
    intro callee m rest around
    have body := runAll_follows ih ((kept_steady settings).invokeKept depth) callee.body
      (m.inside callee.template) (.call m.current rest :: around)
    have bound : depth + (Waiting.call m.current rest :: around).countP isCall =
        depth + 1 + around.countP isCall := by
      simp only [List.countP_cons, isCall, if_true]
      omega
    rw [bound] at body
    exact body.tail (step_call _ _ _ _)

end

/-! ## Programs that call nothing -/

mutual

def Statement.calls : Statement → List String
  | .declare .. => []
  | .method .. => []
  | .assign .. => []
  | .call name _ => [name.text]
  | .branch _ _ body => Block.calls body
  | .loop _ _ body => Block.calls body

def Block.calls : List Statement → List String
  | [] => []
  | s :: ss => s.calls ++ Block.calls ss

end

def Waiting.CallFree : Waiting → Prop
  | .branch rest => Block.calls rest = []
  | .call .. => False
  | .round active _ rest => Block.calls active.body = [] ∧ Block.calls rest = []

namespace Config

structure CallFree (c : Config) : Prop where
  todo : ∀ b, c.todo = .ok b → Block.calls b = []
  around : ∀ w ∈ c.around, w.CallFree

section

variable {settings : Settings} {m : Machine} {rest : Block} {around : List Waiting}

theorem callFree_ok (hr : Block.calls rest = []) (ha : ∀ w ∈ around, w.CallFree) :
    CallFree ⟨.ok rest, m, around⟩ :=
  ⟨fun _ h => Except.ok.inj h ▸ hr, ha⟩

theorem callFree_error {f : Failure} (ha : ∀ w ∈ around, w.CallFree) :
    CallFree ⟨.error f, m, around⟩ :=
  ⟨nofun, ha⟩

theorem callFree_behind (o : Outcome Unit) (hr : Block.calls rest = [])
    (ha : ∀ w ∈ around, w.CallFree) : CallFree (behind o rest around) := by
  rcases o with ⟨f | ⟨⟩, m⟩
  · exact callFree_error ha
  · exact callFree_ok hr ha

theorem callFree_behindLoop (loop : ActiveLoop) (o : Outcome Nat) (hr : Block.calls rest = [])
    (ha : ∀ w ∈ around, w.CallFree) : CallFree (behindLoop settings loop o rest around) := by
  unfold behindLoop
  split
  · exact callFree_error ha
  · exact callFree_ok hr ha

theorem callFree_beginRound {loop : ActiveLoop} (hb : Block.calls loop.body = []) (left : Nat)
    (hr : Block.calls rest = []) (ha : ∀ w ∈ around, w.CallFree) :
    CallFree (beginRound settings loop left m rest around) := by
  cases left with
  | zero => exact callFree_behindLoop _ _ hr ha
  | succ left => exact callFree_ok hb (List.forall_mem_cons.2 ⟨⟨hb, hr⟩, ha⟩)

theorem callFree_beginLoop {location : Location} {condition : Expr} {body : Block}
    (hb : Block.calls body = []) (hr : Block.calls rest = []) (ha : ∀ w ∈ around, w.CallFree) :
    CallFree (beginLoop settings location condition body m rest around) := by
  unfold beginLoop
  split
  · exact callFree_error ha
  · exact callFree_beginRound hb _ hr ha

theorem callFree_resume {w : Waiting} (hw : w.CallFree) (ha : ∀ w ∈ around, w.CallFree) :
    CallFree (resume settings m around w) := by
  cases w with
  | branch rest => exact callFree_ok hw ha
  | call outer rest => exact hw.elim
  | round loop left rest =>
    dsimp only [resume]
    split
    · exact callFree_behindLoop _ _ hw.2 ha
    · exact callFree_behindLoop _ _ hw.2 ha
    · exact callFree_beginRound hw.1 _ hw.2 ha

theorem callFree_abandon {w : Waiting} {f : Failure} (hw : w.CallFree)
    (ha : ∀ w ∈ around, w.CallFree) : CallFree (abandon settings f m around w) := by
  cases w with
  | branch rest => exact callFree_error ha
  | call outer rest => exact hw.elim
  | round loop left rest => exact callFree_behindLoop _ _ hw.2 ha

theorem callFree_execute {s : Statement} (hs : s.calls = []) (hr : Block.calls rest = [])
    (ha : ∀ w ∈ around, w.CallFree) : CallFree (execute settings rest around s m) := by
  cases s with
  | declare name initial =>
    cases initial with
    | none => exact callFree_behind _ hr ha
    | some e =>
      dsimp only [execute]
      split
      · exact callFree_error ha
      · exact callFree_behind _ hr ha
  | method name parameters body => exact callFree_behind _ hr ha
  | assign name e => exact callFree_behind _ hr ha
  | call name arguments => cases hs
  | branch location condition body =>
    dsimp only [execute]
    split
    · exact callFree_error ha
    · exact callFree_ok hr ha
    · exact callFree_ok hs (List.forall_mem_cons.2 ⟨hr, ha⟩)
  | loop location condition body =>
    dsimp only [execute]
    split
    · exact callFree_error ha
    · exact callFree_ok hr ha
    · exact callFree_beginLoop hs hr ha

end

variable {settings : Settings} {c c' : Config}

theorem CallFree.step (h : c.CallFree) (hs : step settings c = some c') : c'.CallFree := by
  obtain ⟨todo, m, around⟩ := c
  obtain ⟨ht, ha⟩ := h
  rcases todo with f | _ | ⟨s, rest⟩
  · cases around with
    | nil => cases hs
    | cons w around =>
      obtain rfl := Option.some.inj hs
      exact callFree_abandon (ha w (.head _)) fun w hw => ha w (.tail _ hw)
  · cases around with
    | nil => cases hs
    | cons w around =>
      obtain rfl := Option.some.inj hs
      exact callFree_resume (ha w (.head _)) fun w hw => ha w (.tail _ hw)
  · obtain rfl := Option.some.inj hs
    obtain ⟨hs, hr⟩ := List.append_eq_nil_iff.1 (ht _ rfl)
    exact callFree_execute hs hr ha

theorem CallFree.steps (h : c.CallFree) (hs : Steps settings c c') : c'.CallFree := by
  induction hs with
  | refl => exact h
  | tail _ hs ih => exact ih.step hs

theorem CallFree.callDepth_eq (h : c.CallFree) : c.callDepth = 0 := by
  refine List.countP_eq_zero.2 fun w hw => ?_
  cases w with
  | branch rest => exact Bool.false_ne_true
  | call outer rest => exact (h.around _ hw).elim
  | round loop left rest => exact Bool.false_ne_true

end Config

/-- A run ends from every machine, whatever its cap on loops, unless its calls come to be nested
deeper than any bound: its steps end as the run that is bounded does, or they come to where calls
are nested deeper. A program that calls nothing ends. -/
theorem Block.ends_or_nests (settings : Settings) (program : Block) (m : Machine) :
    let o (bound : Nat) := runAll settings (Method.invoke settings bound) program m
    let Ends (o : Outcome Unit) : Prop :=
      Steps settings (start program m) (behind o [] []) ∧ step settings (behind o [] []) = none
    (∀ bound : Nat, (Bounded (o bound).result ∧ Ends (o bound)) ∨
      ((o bound).result = .error tooManyCalls ∧
        ∃ c, Steps settings (start program m) c ∧ bound < c.callDepth)) ∧
    (Block.calls program = [] → ∀ bound : Nat, Bounded (o bound).result ∧ Ends (o bound)) := by
  intro o Ends
  have ended (o : Outcome Unit) : step settings (behind o [] []) = none := by
    rcases o with ⟨f | ⟨⟩, m⟩ <;> rfl
  have follows (bound : Nat) : Follows settings bound (start program m) (o bound).result
      (behind (o bound) [] []) :=
    runAll_follows (invoke_follows settings bound) ((kept_steady settings).invokeKept bound)
      program m []
  refine ⟨fun bound => ?_, fun free bound => ?_⟩
  · exact (follows bound).imp_left fun ⟨hr, steps⟩ => ⟨hr, steps, ended _⟩
  · rcases follows bound with ⟨hr, steps⟩ | ⟨-, c, steps, deeper⟩
    · exact ⟨hr, steps, ended _⟩
    · have none : (start program m).CallFree := callFree_ok free nofun
      rw [(none.steps steps).callDepth_eq] at deeper
      exact absurd deeper (Nat.not_lt_zero bound)

theorem Block.ends_or_nests_endless :
    let settings : Settings := ⟨false, some "3"⟩
    let looping : Block := [.loop {} (.literal (.bool true)) [.declare ⟨"i", {}⟩ none]]
    let calling : Block := [.method ⟨"f", {}⟩ [] [.call ⟨"f", {}⟩ []], .call ⟨"f", {}⟩ []]
    let m : Machine := ⟨.start, #[]⟩
    Block.calls looping = [] ∧
      (∃ p : Machine, Steps settings (start looping m)
        ⟨.error (.ofCause (.iterationLimit 3) {}), p, []⟩) ∧
      ∃ c, Steps settings (start calling m) c ∧ 2 < c.callDepth := by
  intro settings looping calling m
  refine ⟨rfl, ?_, ?_⟩
  · obtain ⟨-, steps, -⟩ := (ends_or_nests settings looping m).2 rfl 0
    have result : (runAll settings (Method.invoke settings 0) looping m).result =
        .error (.ofCause (.iterationLimit 3) {}) := by decide +kernel
    rw [behind, result] at steps
    exact ⟨_, steps⟩
  · have result : (runAll settings (Method.invoke settings 2) calling m).result =
        .error tooManyCalls := by decide +kernel
    rcases (ends_or_nests settings calling m).1 2 with ⟨bounded, -⟩ | ⟨-, deeper⟩
    · exact absurd result bounded
    · exact deeper

end ScopedScript
