import ScopedScript.Proofs.Run.Steady
import ScopedScript.Proofs.Store.Lookup
import ScopedScript.Session

namespace ScopedScript

def Machine.afresh (m : Machine) (ordinal : Nat) (run : Machine → Outcome Unit) : Outcome Unit :=
  let inner := m.store.next
  let o := run { m with store := m.store.add ⟨some m.current, ordinal, [], []⟩, current := inner }
  { o with machine := { o.machine with current := m.current } }

section

variable (test : Store Value → Except Failure Bool) (body : Machine → Outcome Unit)

/-- A loop without a cap ends, and has started so many bodies. -/
inductive EndsAfter : (started : Nat) → Machine → Outcome Unit → Prop
  | untested {m : Machine} {f : Failure} :
    test m.store = .error f → EndsAfter 0 m ⟨.error f, m⟩
  | finished {m : Machine} : test m.store = .ok false → EndsAfter 0 m ⟨.ok (), m⟩
  | failed {m : Machine} {f : Failure} :
    test m.store = .ok true → (body m).result = .error f → EndsAfter 1 m (body m)
  | again {k : Nat} {m : Machine} {o : Outcome Unit} :
    test m.store = .ok true → (body m).result = .ok () → EndsAfter k (body m).machine o →
      EndsAfter (k + 1) m o

/-- A loop without a cap completes so many bodies, and then its condition holds. -/
inductive HoldsAfter : (completed : Nat) → Machine → Machine → Prop
  | here {m : Machine} : test m.store = .ok true → HoldsAfter 0 m m
  | again {k : Nat} {m n : Machine} :
    test m.store = .ok true → (body m).result = .ok () → HoldsAfter k (body m).machine n →
      HoldsAfter (k + 1) m n

end

section

variable {test : Store Value → Except Failure Bool} {body : Machine → Outcome Unit}

theorem endsAfter_or_holdsAfter (k : Nat) (m : Machine) :
    (∃ j o, j ≤ k ∧ EndsAfter test body j m o) ∨ ∃ n, HoldsAfter test body k m n := by
  induction k generalizing m with
  | zero =>
    rcases ht : test m.store with f | b
    · exact .inl ⟨0, _, Nat.le_refl 0, .untested ht⟩
    · cases b with
      | false => exact .inl ⟨0, _, Nat.le_refl 0, .finished ht⟩
      | true => exact .inr ⟨m, .here ht⟩
  | succ k ih =>
    rcases ht : test m.store with f | b
    · exact .inl ⟨0, _, Nat.zero_le _, .untested ht⟩
    · cases b with
      | false => exact .inl ⟨0, _, Nat.zero_le _, .finished ht⟩
      | true =>
        rcases hb : (body m).result with f | ⟨⟩
        · exact .inl ⟨1, _, Nat.le_add_left 1 k, .failed ht hb⟩
        · rcases ih (body m).machine with ⟨j, o, hj, ends⟩ | ⟨n, holds⟩
          · exact .inl ⟨j + 1, o, Nat.succ_le_succ hj, .again ht hb ends⟩
          · exact .inr ⟨n, .again ht hb holds⟩

theorem HoldsAfter.lt {k : Nat} {m n : Machine} (h : HoldsAfter test body k m n) {j : Nat}
    {o : Outcome Unit} (ends : EndsAfter test body j m o) : k < j := by
  induction h generalizing j with
  | here ht =>
    cases ends with
    | untested hf => rw [ht] at hf; cases hf
    | finished hf => rw [ht] at hf; cases hf
    | failed _ _ => exact Nat.one_pos
    | again _ _ _ => exact Nat.succ_pos _
  | again ht hb _ ih =>
    cases ends with
    | untested hf => rw [ht] at hf; cases hf
    | finished hf => rw [ht] at hf; cases hf
    | failed _ hf => rw [hb] at hf; cases hf
    | again _ _ ends => exact Nat.succ_lt_succ (ih ends)

theorem EndsAfter.current {k : Nat} {m : Machine} {o : Outcome Unit}
    (h : EndsAfter test body k m o) (hb : ∀ m, (body m).machine.current = m.current) :
    o.machine.current = m.current := by
  induction h with
  | untested _ => rfl
  | finished _ => rfl
  | failed _ _ => exact hb _
  | again _ _ _ ih => exact ih.trans (hb _)

theorem HoldsAfter.current {k : Nat} {m n : Machine} (h : HoldsAfter test body k m n)
    (hb : ∀ m, (body m).machine.current = m.current) : n.current = m.current := by
  induction h with
  | here _ => rfl
  | again _ _ _ ih => exact ih.trans (hb _)

def goOn (body : Machine → Outcome Unit) (test : Store Value → Except Failure Bool)
    (exceeded : Failure) (left : Nat) (m : Machine) : Outcome Nat :=
  match test m.store with
  | .error f => ⟨.error f, m⟩
  | .ok false => ⟨.ok left, m⟩
  | .ok true => iterate body test exceeded left m

theorem goOn_of_true {m : Machine} (ht : test m.store = .ok true) (exceeded : Failure)
    (left : Nat) : goOn body test exceeded left m = iterate body test exceeded left m := by
  rw [goOn, ht]

theorem iterate_of_ok {m : Machine} (hb : (body m).result = .ok ()) (exceeded : Failure)
    (left : Nat) : iterate body test exceeded (left + 1) m =
      goOn body test exceeded left (body m).machine := by
  rw [iterate]
  rcases hm : body m with ⟨r, n⟩
  rw [hm] at hb
  cases hb
  rfl

theorem iterate_of_error {m : Machine} {f : Failure} (hb : (body m).result = .error f)
    (exceeded : Failure) (left : Nat) :
    iterate body test exceeded (left + 1) m = ⟨.error f, (body m).machine⟩ := by
  rw [iterate]
  rcases hm : body m with ⟨r, n⟩
  rw [hm] at hb
  cases hb
  rfl

theorem EndsAfter.goOn_eq {k : Nat} {m : Machine} {o : Outcome Unit}
    (h : EndsAfter test body k m o) (exceeded : Failure) {left : Nat} (hk : k ≤ left) :
    goOn body test exceeded left m = ⟨o.result.map fun _ => left - k, o.machine⟩ := by
  induction h generalizing left with
  | untested hf => rw [goOn, hf]; rfl
  | finished hf => rw [goOn, hf]; rfl
  | failed ht hb =>
    obtain ⟨left, rfl⟩ := Nat.exists_eq_add_of_le' hk
    rw [goOn_of_true ht, iterate_of_error hb, hb]
    rfl
  | again ht hb _ ih =>
    obtain ⟨left, rfl⟩ := Nat.exists_eq_add_of_le' (Nat.le_trans (Nat.le_add_left 1 _) hk)
    rw [goOn_of_true ht, iterate_of_ok hb, ih (Nat.le_of_succ_le_succ hk),
      Nat.add_sub_add_right]

theorem HoldsAfter.goOn_eq {left : Nat} {m n : Machine} (h : HoldsAfter test body left m n)
    (exceeded : Failure) : goOn body test exceeded left m = ⟨.error exceeded, n⟩ := by
  induction h with
  | here ht => rw [goOn_of_true ht, iterate]
  | again ht hb _ ih => rw [goOn_of_true ht, iterate_of_ok hb, ih]

end

def Machine.HasEmpty (m : Machine) (id outer : ScopeId) (ordinal : Nat) : Prop :=
  m.store.scopes[id]? = some ⟨some outer, ordinal, [], []⟩

theorem Scope.Keeps.eq_empty {α : Type} {outer : ScopeId} {ordinal : Nat} {b : Scope α}
    (h : Scope.Keeps ⟨some outer, ordinal, [], []⟩ b) : b = ⟨some outer, ordinal, [], []⟩ := by
  obtain ⟨parent, ordinal', vars, methods⟩ := b
  have table : vars.map (fun v => (v.name, v.ordinal)) = [] := h.table
  have same : parent = some outer ∧ ordinal' = ordinal ∧ methods = [] :=
    ⟨h.parent, h.ordinal, h.methods⟩
  obtain ⟨rfl, rfl, rfl⟩ := same
  rw [List.map_eq_nil_iff.1 table]

theorem Machine.HasEmpty.of_frame {m n : Machine} {id outer : ScopeId} {ordinal : Nat}
    (h : m.HasEmpty id outer ordinal) (hf : m.store.Frame none n.store) :
    n.HasEmpty id outer ordinal := by
  obtain ⟨b, hb, -, keeps⟩ := hf.scope id _ h
  rw [HasEmpty, hb, (keeps (by simp)).eq_empty]

def Machine.at (m : Machine) (scope : ScopeId) : Machine := { m with current := scope }

theorem Machine.HasEmpty.within_eq {m : Machine} {template outer : ScopeId} {ordinal : Nat}
    (h : m.HasEmpty template outer ordinal) (run : Machine → Outcome Unit) :
    m.within template run = ⟨((m.at outer).afresh ordinal run).result,
      ((m.at outer).afresh ordinal run).machine.at m.current⟩ := by
  have copied : m.inside template =
      { m.at outer with
        store := m.store.add ⟨some outer, ordinal, [], []⟩, current := m.store.next } := by
    rw [HasEmpty] at h
    simp only [inside, Store.copy, h]
    rfl
  rw [within, copied]
  rfl

section

variable {body : Machine → Outcome Unit}

theorem iterate_within (hs : ∀ m, Steady (some m.current) m (body m))
    (test : Store Value → Except Failure Bool) (exceeded : Failure)
    {template outer : ScopeId} {ordinal : Nat} (left : Nat) (m : Machine)
    (h : m.HasEmpty template outer ordinal) :
    iterate (fun m => m.within template body) test exceeded left m =
      ⟨(iterate (fun m => m.afresh ordinal body) test exceeded left (m.at outer)).result,
        (iterate (fun m => m.afresh ordinal body) test exceeded left
          (m.at outer)).machine.at m.current⟩ := by
  induction left generalizing m with
  | zero => rfl
  | succ left ih =>
    have round := h.within_eq body
    have kept := h.of_frame (within_steady m template hs).frame
    rcases ho : (m.at outer).afresh ordinal body with ⟨r, n⟩
    have back : n.current = outer := congrArg (fun o => o.machine.current) ho.symm
    rw [ho] at round
    rw [round] at kept
    rw [iterate, iterate, round, ho]
    rcases r with f | ⟨⟩
    · rfl
    · have same : (n.at m.current).store = n.store := rfl
      have there : (n.at m.current).at outer = n := by
        rw [← back]
        rfl
      dsimp only
      rw [same]
      rcases test n.store with f | b
      · rfl
      · cases b with
        | false => rfl
        | true =>
          have rest := ih (n.at m.current) kept
          rw [there] at rest
          exact rest

end

namespace Statement

def loopStart (settings : Settings) (location : Location) (condition : Expr) (body : Block)
    (m : Machine) : Machine :=
  let noted := noteStart settings (.loop location condition body) m
  (noted.note settings ("while " ++ condition.render)).enter.at m.current

theorem loopStart_toSession (settings : Settings) (location : Location) (condition : Expr)
    (body : Block) (m : Machine) :
    (loopStart settings location condition body m).toSession =
      { m.toSession with store := m.store.push (some m.current) } := by
  have same := noteStart_toSession settings (.loop location condition body) m
  simp only [loopStart, Machine.at, Machine.enter, Session.enter, Machine.note_toSession, same]

theorem runLoop_afresh {settings : Settings} {cap : Int} (hc : settings.cap = .ok cap)
    (location : Location) (condition : Expr) {body : Machine → Outcome Unit}
    (hs : ∀ m, Steady (some m.current) m (body m)) (m : Machine) :
    let n := m.note settings ("while " ++ condition.render)
    let o := iterate (fun m => m.afresh n.store.made.scopes body)
      (fun store => testCondition (store.view n.current) condition .loopCondition location)
      (.ofCause (.iterationLimit cap) location) cap.toNat (n.enter.at n.current)
    let p := runLoop settings location condition body m
    p.result = o.result.map (fun _ => ()) ∧
      p.machine.toSession = (o.machine.at n.current).toSession := by
  intro n o p
  rcases runLoop_cases settings location condition body m with ⟨f, failed, -⟩ |
    ⟨_, notes, hc', eq⟩
  · rw [hc] at failed
    cases failed
  · rw [hc] at hc'
    cases hc'
    have steady := rounds_steady cap location condition hs n
    have left := Outcome.leave_eq n location steady.current steady.frame
    -- the template stays empty, so that its copies are new scopes without bindings
    have fresh := iterate_within hs
      (fun store => testCondition (store.view n.current) condition .loopCondition location)
      (.ofCause (.iterationLimit cap) location) cap.toNat n.enter (n.enter_scope)
    rw [← rounds] at fresh
    have ended : rounds cap location condition body n =
        ⟨o.result, o.machine.at n.enter.current⟩ := fresh
    simp only [p, eq]
    rw [left, ended]
    exact ⟨rfl, rfl⟩

/-- A loop whose first condition does not hold changes nothing, whatever its cap. Another one does
what it does without a cap if that ends with no more bodies than the cap allows; else it fails
behind as many bodies as the cap allows, where its condition holds once more. -/
theorem loop_capped (settings : Settings) (depth : Nat) (location : Location) (condition : Expr)
    (body : Block) (m : Machine) :
    let invoke := Method.invoke settings depth
    let o := run settings invoke (.loop location condition body) m
    let test (store : Store Value) :=
      testCondition (store.view m.current) condition .loopCondition location
    let round (n : Machine) := n.afresh m.store.made.scopes (runAll settings invoke body)
    let start := loopStart settings location condition body m
    start.toSession = { m.toSession with store := m.store.push (some m.current) } ∧
      (test m.store = .ok false → o.result = .ok () ∧ o.machine.toSession = m.toSession) ∧
      (∀ f, test m.store = .error f → o.result = .error f ∧ o.machine.toSession = m.toSession) ∧
      ∀ cap, settings.cap = .ok cap → test m.store = .ok true →
        (∀ k p, EndsAfter test round k start p → k ≤ cap →
          o.result = p.result ∧ o.machine.toSession = p.machine.toSession) ∧
        ((∀ k p, EndsAfter test round k start p → cap < k) →
          o.result = .error (.ofCause (.iterationLimit cap) location) ∧
            ∃ n, HoldsAfter test round cap.toNat start n ∧
              o.machine.toSession = n.toSession) := by
  intro invoke o test round start
  have same := noteStart_toSession settings (.loop location condition body) m
  have started := loopStart_toSession settings location condition body m
  have first : o = match test m.store with
      | .error f => ⟨.error f, noteStart settings (.loop location condition body) m⟩
      | .ok false => ⟨.ok (), noteStart settings (.loop location condition body) m⟩
      | .ok true => runLoop settings location condition (runAll settings invoke body)
          (noteStart settings (.loop location condition body) m) := by
    simp only [o, run, same]
    rfl
  refine ⟨started, fun hf => ?_, fun f hf => ?_, fun cap hc ht => ?_⟩
  · rw [first, hf]
    exact ⟨rfl, same⟩
  · rw [first, hf]
    exact ⟨rfl, same⟩
  · -- behind the first test the loop is its rounds, which begin with a test that holds as well
    have held : test start.store = .ok true := by
      have store : start.store = m.store.push (some m.current) := congrArg Session.store started
      simpa only [test, store, Store.view_push] using ht
    have fresh := runLoop_afresh hc location condition (runAll_steady settings depth body)
      (noteStart settings (.loop location condition body) m)
    simp only [Machine.note_toSession, same] at fresh
    have looped : o.result = (goOn round test (.ofCause (.iterationLimit cap) location) cap.toNat
          start).result.map (fun _ => ()) ∧
        o.machine.toSession = ((goOn round test (.ofCause (.iterationLimit cap) location) cap.toNat
          start).machine.at m.current).toSession := by
      rw [first, ht, goOn_of_true held]
      exact fresh
    have back (n : Machine) : (round n).machine.current = n.current := rfl
    have current : start.current = m.current := rfl
    obtain ⟨result, machine⟩ := looped
    refine ⟨fun k p ends hk => ?_, fun beyond => ?_⟩
    · rw [ends.goOn_eq _ (by omega : k ≤ cap.toNat)] at result machine
      have there : p.machine.at m.current = p.machine := by
        rw [← current, ← ends.current back]
        rfl
      rw [there] at machine
      refine ⟨result.trans ?_, machine⟩
      cases p.result <;> rfl
    · rcases endsAfter_or_holdsAfter cap.toNat start with ⟨j, p, hj, ends⟩ | ⟨n, holds⟩
      · have more := beyond j p ends
        have positive := (HoldsAfter.here held).lt ends
        omega
      · rw [holds.goOn_eq] at result machine
        have there : n.at m.current = n := by
          rw [← current, ← holds.current back]
          rfl
        rw [there] at machine
        exact ⟨result, n, holds, machine⟩

theorem loop_capped_two_rounds :
    let i : Name := ⟨"i", {}⟩
    let condition := Expr.binary (.name i) ⟨.greater, ">", .null, {}⟩ (.literal (.number 0))
    let next := Expr.binary (.name i) ⟨.minus, "-", .null, {}⟩ (.literal (.number 1))
    let body := [Statement.assign i next]
    let store := Session.start.store.addVariable 0 "i" (.number 2) .division
    let m : Machine := ⟨{ Session.start with store := store }, #[]⟩
    let test (store : Store Value) := testCondition (store.view 0) condition .loopCondition {}
    let capped (cap : String) : Settings := ⟨false, some cap⟩
    let round (cap : String) (n : Machine) :=
      n.afresh 1 (runAll (capped cap) (Method.invoke (capped cap) 1) body)
    let start (cap : String) := loopStart (capped cap) {} condition body m
    let o (cap : String) :=
      run (capped cap) (Method.invoke (capped cap) 1) (.loop {} condition body) m
    test m.store = .ok true ∧
      (capped "2").cap = .ok 2 ∧ (∃ p, EndsAfter test (round "2") 2 (start "2") p) ∧
      (o "2").result = .ok () ∧
      (capped "1").cap = .ok 1 ∧ (∀ k p, EndsAfter test (round "1") k (start "1") p → 1 < k) ∧
      (o "1").result = .error (.ofCause (.iterationLimit 1) {}) := by
  intro i condition next body store m test capped round start o
  have held : test m.store = .ok true := by decide +kernel
  have ends : EndsAfter test (round "2") 2 (start "2")
      ⟨.ok (), ((round "2") (round "2" (start "2")).machine).machine⟩ :=
    .again (by decide +kernel) (by decide +kernel)
      (.again (by decide +kernel) (by decide +kernel) (.finished (by decide +kernel)))
  have holds : HoldsAfter test (round "1") 1 (start "1") (round "1" (start "1")).machine :=
    .again (by decide +kernel) (by decide +kernel) (.here (by decide +kernel))
  have beyond (k : Nat) (p : Outcome Unit) (h : EndsAfter test (round "1") k (start "1") p) :
      1 < k := holds.lt h
  obtain ⟨-, -, -, two⟩ := loop_capped (capped "2") 1 {} condition body m
  obtain ⟨-, -, -, one⟩ := loop_capped (capped "1") 1 {} condition body m
  refine ⟨held, rfl, ⟨_, ends⟩, ((two 2 rfl held).1 2 _ ends (Int.le_refl 2)).1, rfl, beyond, ?_⟩
  exact ((one 1 rfl held).2 fun k p h => Int.ofNat_lt.2 (beyond k p h)).1

end Statement

end ScopedScript
