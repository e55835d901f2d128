import ScopedScript.Proofs.Run.Log

namespace ScopedScript

open Statement

/-- The store is sound with the scopes that may get bindings, and the current one is among them. -/
structure Machine.Ready (active : List Nat) (m : Machine) : Prop where
  current : m.current ∈ active
  sound : m.store.Sound active

structure Reaches (m m' : Machine) : Prop where
  ready (active : List Nat) : m.Ready active → ∃ active', active ⊆ active' ∧ m'.Ready active'
  vacant (outer id : Nat) : m.store.Vacant outer id → id ≠ m.current →
    m'.store.Vacant outer id ∧ id ≠ m'.current
  size_le : m.store.scopes.size ≤ m'.store.scopes.size

namespace Reaches

variable {m m' m'' : Machine}

theorem of_eq (hs : m'.store = m.store) (hc : m'.current = m.current) : Reaches m m' := by
  refine ⟨?_, ?_, Nat.le_of_eq (by rw [hs])⟩
  · intro active h
    exact ⟨active, fun _ => id, hc ▸ h.current, hs ▸ h.sound⟩
  · intro outer id hv hne
    exact ⟨hs ▸ hv, hc ▸ hne⟩

theorem refl (m : Machine) : Reaches m m := of_eq rfl rfl

theorem trans (h : Reaches m m') (h' : Reaches m' m'') : Reaches m m'' := by
  refine ⟨?_, ?_, Nat.le_trans h.size_le h'.size_le⟩
  · intro active hr
    obtain ⟨active', hsub, hr'⟩ := h.ready active hr
    obtain ⟨active'', hsub', hr''⟩ := h'.ready active' hr'
    exact ⟨active'', fun _ hi => hsub' (hsub hi), hr''⟩
  · intro outer id hv hne
    obtain ⟨hv', hne'⟩ := h.vacant outer id hv hne
    exact h'.vacant outer id hv' hne'

theorem back (h : Reaches m m') (hs : m''.store = m'.store) (hc : m''.current = m.current) :
    Reaches m m'' := by
  refine ⟨?_, ?_, by rw [hs]; exact h.size_le⟩
  · intro active hr
    obtain ⟨active', hsub, hr'⟩ := h.ready active hr
    exact ⟨active', hsub, hc ▸ hsub hr.current, hs ▸ hr'.sound⟩
  · intro outer id hv hne
    exact ⟨hs ▸ (h.vacant outer id hv hne).1, hc ▸ hne⟩

theorem of_safe (h : Safe m m') (hc : m'.current = m.current)
    (hs : m.store.scopes.size ≤ m'.store.scopes.size) : Reaches m m' := by
  refine ⟨?_, ?_, hs⟩
  · intro active hr
    exact ⟨active, fun _ => id, hc ▸ hr.current, h.sound active hr.current hr.sound⟩
  · exact fun outer id hv hne => ⟨h.vacant outer id hv hne, hc ▸ hne⟩

theorem of_run (settings : Settings) (depth : Nat) (s : Statement) (m : Machine) :
    Reaches m (run settings (Method.invoke settings depth) s m).machine := by
  obtain ⟨steady, safe⟩ := (kept_safe settings).run depth s m
  exact of_safe safe steady.current steady.frame.size_le

theorem inside {template outer : Nat} (hv : m.store.Vacant outer template) :
    Reaches m (m.inside template) := by
  refine ⟨?_, ?_, (Store.frame_copy m.store template).size_le⟩
  · intro active hr
    exact ⟨_, List.subset_cons_self _ _, List.mem_cons_self, Machine.inside_sound hr.sound hv⟩
  · exact fun outer id hv _ => ⟨Machine.inside_vacant hv, Nat.ne_of_lt hv.lt_size⟩

theorem entered (m : Machine) : Reaches m { m.enter with current := m.current } := by
  refine ⟨?_, ?_, m.frame_enter.size_le⟩
  · intro active hr
    exact ⟨_, List.subset_cons_self _ _, List.mem_cons_of_mem _ hr.current,
      Machine.enter_sound hr.sound hr.current⟩
  · exact fun outer id hv hne => ⟨Machine.enter_vacant hv hne, hne⟩

end Reaches

structure Logged (m : Machine) (l : List Execution) (m' : Machine) : Prop where
  current : m'.current = m.current
  reaches : Reaches m m'
  begins (x : Execution) : x ∈ l → Reaches m x.machine
  ends (x : Execution) : x ∈ l → ∀ outer id : Nat, x.machine.store.scopes.size ≤ id →
    x.outcome.machine.store.Vacant outer id → m'.store.Vacant outer id
  ordered : l.Pairwise fun x y =>
    ∀ t, x.template? = some t → y.machine.store.Vacant x.machine.current t

theorem Statement.cap?_congr {settings : Settings} {location : Location} {condition : Expr}
    {m m' : Machine} (h : m'.toSession = m.toSession) :
    cap? settings location condition m' = cap? settings location condition m := by
  unfold cap?
  rw [h]

theorem run_loop_store (settings : Settings) (invoke : Method → Machine → Outcome Unit)
    (location : Location) (condition : Expr) (body : Block) (m : Machine) :
    let n := noteStart settings (.loop location condition body) m
    (run settings invoke (.loop location condition body) m).machine.store =
      match cap? settings location condition n with
      | none => m.store
      | some cap =>
        (rounds cap location condition (runAll settings invoke body)
          (n.note settings ("while " ++ condition.render))).machine.store := by
  intro n
  have same : n.toSession = m.toSession := noteStart_toSession settings _ m
  rw [run, cap?]
  dsimp only [n] at same ⊢
  generalize noteStart settings _ m = n at same ⊢
  rcases testCondition (n.store.view n.current) condition .loopCondition location with
    f | ⟨⟨⟩ | ⟨⟩⟩
  · exact congrArg Session.store same
  · exact congrArg Session.store same
  · dsimp only
    rcases runLoop_cases settings location condition (runAll settings invoke body) n with
      ⟨f, hc, h⟩ | ⟨cap, notes, hc, h⟩
    · rw [hc]
      exact (congrArg (fun o => o.machine.store) h).trans
        (congrArg Session.store ((Machine.note_toSession _ _ _).trans same))
    · rw [hc]
      exact (congrArg (fun o => o.machine.store) h).trans (Outcome.leave_store _ _)

theorem runAll_safe (settings : Settings) (depth : Nat) (b : Block) (m : Machine) :
    Safe m (runAll settings (Method.invoke settings depth) b m).machine :=
  ((kept_safe settings).runAll depth b m).2

theorem Execution.template_vacant {x : Execution} {active : List Nat}
    (hr : x.machine.Ready active) {t : Nat} (ht : x.template? = some t) :
    t = x.machine.store.scopes.size ∧ x.outcome.machine.store.Vacant x.machine.current t := by
  obtain ⟨settings, depth, s, m⟩ := x
  cases s with
  | loop location condition body =>
    obtain ⟨cap, hcap, rfl⟩ := Option.map_eq_some_iff.1 ht
    refine ⟨rfl, ?_⟩
    have same : (noteStart settings (.loop location condition body) m).toSession = m.toSession :=
      noteStart_toSession settings _ m
    simp only [Execution.outcome, run_loop_store]
    rw [cap?_congr same, hcap]
    dsimp only
    have same' := (Machine.note_toSession _ settings ("while " ++ condition.render)).trans same
    generalize Machine.note _ settings ("while " ++ condition.render) = n at same'
    have entered := Machine.entered_vacant (m := n) (by rw [same']; exact hr.sound)
      (by rw [same']; exact hr.current)
    rw [same'] at entered
    exact iterate_vacant (fun m => runAll_safe settings depth body m) _ _ _ _ entered
  | declare _ _ => cases ht
  | method _ _ _ => cases ht
  | assign _ _ => cases ht
  | call _ _ => cases ht
  | branch _ _ _ => cases ht

namespace Logged

variable {m m' m'' : Machine} {l l' : List Execution}

theorem nil (hc : m'.current = m.current) (h : Reaches m m') : Logged m [] m' :=
  ⟨hc, h, by simp, by simp, .nil⟩

theorem append {active : List Nat} (hr : m.Ready active) (h : Logged m l m')
    (h' : Logged m' l' m'') : Logged m (l ++ l') m'' := by
  have later {x : Execution} (hx : x ∈ l) {outer id : Nat}
      (hid : x.machine.store.scopes.size ≤ id) (hv : x.outcome.machine.store.Vacant outer id) :
      m'.store.Vacant outer id ∧ id ≠ m'.current := by
    refine ⟨h.ends x hx outer id hid hv, ?_⟩
    have := hr.sound.active_lt _ hr.current
    have := (h.begins x hx).size_le
    rw [h.current]
    omega
  refine ⟨h'.current.trans h.current, h.reaches.trans h'.reaches, ?_, ?_, ?_⟩
  · intro x hx
    rcases List.mem_append.1 hx with hx | hx
    · exact h.begins x hx
    · exact h.reaches.trans (h'.begins x hx)
  · intro x hx outer id hid hv
    rcases List.mem_append.1 hx with hx | hx
    · obtain ⟨hv', hne⟩ := later hx hid hv
      exact (h'.reaches.vacant outer id hv' hne).1
    · exact h'.ends x hx outer id hid hv
  · refine List.pairwise_append.2 ⟨h.ordered, h'.ordered, ?_⟩
    intro x hx y hy t ht
    obtain ⟨active', -, hr'⟩ := (h.begins x hx).ready active hr
    obtain ⟨rfl, hv⟩ := x.template_vacant hr' ht
    obtain ⟨hv', hne⟩ := later hx (Nat.le_refl _) hv
    exact ((h'.begins y hy).vacant _ _ hv' hne).1

theorem cons {x : Execution} (h : Logged x.machine l x.outcome.machine)
    (ht : ∀ t, x.template? = some t → ∀ y ∈ l, y.machine.store.Vacant x.machine.current t) :
    Logged x.machine (x :: l) x.outcome.machine := by
  refine ⟨h.current, h.reaches, ?_, ?_, List.pairwise_cons.2 ⟨?_, h.ordered⟩⟩
  · intro y hy
    rcases List.mem_cons.1 hy with rfl | hy
    · exact .refl _
    · exact h.begins y hy
  · intro y hy
    rcases List.mem_cons.1 hy with rfl | hy
    · exact fun _ _ _ hv => hv
    · exact h.ends y hy
  · exact fun y hy t e => ht t e y hy

theorem leaf (x : Execution) : Logged x.machine [x] x.outcome.machine := by
  have current := (run_steady x.settings x.depth x.statement x.machine).current
  exact .cons (.nil current (.of_run x.settings x.depth x.statement x.machine)) (by simp)

theorem widen {n n' : Machine} (h : Logged m l m') (hn : Reaches n m)
    (hs : n'.store = m'.store) (hc : n'.current = n.current) : Logged n l n' :=
  ⟨hc, (hn.trans h.reaches).back hs hc, fun x hx => hn.trans (h.begins x hx),
    fun x hx => hs ▸ h.ends x hx, h.ordered⟩

theorem around {x : Execution} {n : Machine} (hn : n.toSession = x.machine.toSession)
    (ht : x.template? = none) (h : Logged n l x.outcome.machine) :
    Logged x.machine (x :: l) x.outcome.machine := by
  have current : x.outcome.machine.current = x.machine.current := by rw [h.current, hn]
  exact .cons (h.widen (.of_eq (by rw [hn]) (by rw [hn])) rfl current) (by simp [ht])

end Logged

theorem rounds_logged {template outer : Nat} {settings : Settings} {depth : Nat} {body : Block}
    {called : Method → Machine → List Execution}
    (hb : ∀ m active, m.Ready active → Logged m (logAll settings depth called body m)
      (runAll settings (Method.invoke settings depth) body m).machine)
    (again : Store Value → Except Failure Bool) (exceeded : Failure) (left : Nat) (m : Machine)
    (active : List Nat) (hr : Machine.Ready active { m with current := outer })
    (hv : m.store.Vacant outer template) :
    let run := runAll settings (Method.invoke settings depth) body
    Logged { m with current := outer }
      ((roundStarts template run again left m).flatMap (logAll settings depth called body))
      { (iterate (·.within template run) again exceeded left m).machine with
        current := outer } := by
  intro run
  induction left generalizing m with
  | zero => exact .nil rfl (.refl _)
  | succ left ih =>
    have inner : Reaches { m with current := outer } (m.inside template) :=
      Reaches.inside (m := { m with current := outer }) hv
    obtain ⟨active', -, ready⟩ := inner.ready active hr
    have first : Logged { m with current := outer }
        (logAll settings depth called body (m.inside template))
        { (m.within template run).machine with current := outer } :=
      (hb _ _ ready).widen inner rfl rfl
    have safe := runAll_safe settings depth body
    rw [roundStarts, iterate, List.flatMap_cons]
    -- the template is as empty after the round as before it, so the next one starts alike
    have vacant : (m.within template run).machine.store.Vacant outer template :=
      within_vacant safe hv
    have sound : (m.within template run).machine.store.Sound active :=
      within_sound (m := { m with current := outer }) safe hr.sound hv
    generalize m.within template run = o at first vacant sound
    rcases o with ⟨f | ⟨⟩, m'⟩
    · simpa using first
    · have ready : Machine.Ready active { m' with current := outer } := ⟨hr.current, sound⟩
      dsimp only
      rcases again m'.store with f | ⟨⟨⟩ | ⟨⟩⟩
      · simpa using first
      · simpa using first
      · exact first.append hr (ih m' ready vacant)

theorem log_loop_logged {settings : Settings} {depth : Nat} {body : Block}
    {called : Method → Machine → List Execution}
    (hb : ∀ m active, m.Ready active → Logged m (logAll settings depth called body m)
      (runAll settings (Method.invoke settings depth) body m).machine)
    (location : Location) (condition : Expr) (m : Machine) (active : List Nat)
    (hr : m.Ready active) :
    let x : Execution := ⟨settings, depth, .loop location condition body, m⟩
    Logged m (x :: log settings depth called x.statement m) x.outcome.machine := by
  intro x
  have same : (noteStart settings x.statement m).toSession = m.toSession :=
    noteStart_toSession settings _ m
  have current : x.outcome.machine.current = m.current := (run_steady settings depth _ m).current
  have store := run_loop_store settings (Method.invoke settings depth) location condition body m
  rw [log, loopStarts]
  dsimp only at store ⊢
  rw [cap?_congr same] at store ⊢
  cases hcap : cap? settings location condition m with
  | none => exact .leaf x
  | some cap =>
    rw [hcap] at store
    have same' := (Machine.note_toSession _ settings ("while " ++ condition.render)).trans same
    dsimp only at store ⊢
    generalize Machine.note _ settings ("while " ++ condition.render) = n at same' store ⊢
    have hn : Reaches m n := .of_eq (by rw [same']) (by rw [same'])
    obtain ⟨active', -, ready⟩ := hn.ready active hr
    obtain ⟨active'', -, ready'⟩ := (Reaches.entered n).ready active' ready
    have vacant := Machine.entered_vacant ready.sound ready.current
    have inner := rounds_logged hb
      (fun store => testCondition (store.view n.current) condition .loopCondition location)
      (.ofCause (.iterationLimit cap) location) cap.toNat n.enter active'' ready' vacant
    refine .cons (x := x) (inner.widen (hn.trans (.entered n)) store current) ?_
    intro t ht y hy
    obtain ⟨-, rfl⟩ : cap? settings location condition m = some cap ∧ m.store.next = t :=
      ⟨hcap, by simpa [Execution.template?, x, hcap] using ht⟩
    have hne := Nat.ne_of_gt (ready.sound.active_lt _ ready.current)
    have := ((inner.begins y hy).vacant _ _ vacant hne).1
    rw [same'] at this
    exact this

mutual

theorem log_logged {settings : Settings} {depth : Nat}
    {called : Method → Machine → List Execution}
    (hc : ∀ m active name callee, m.Ready active →
      m.store.methodNamed? m.current name = some callee →
      Logged m (called callee m) (Method.invoke settings depth callee m).machine) :
    ∀ (s : Statement) (m : Machine) (active : List Nat), m.Ready active →
      Logged m (⟨settings, depth, s, m⟩ :: log settings depth called s m)
        (run settings (Method.invoke settings depth) s m).machine
  | .declare name e?, m, active, hr => .leaf ⟨settings, depth, .declare name e?, m⟩
  | .method name parameters body, m, active, hr =>
    .leaf ⟨settings, depth, .method name parameters body, m⟩
  | .assign name e, m, active, hr => .leaf ⟨settings, depth, .assign name e, m⟩
  | .call name arguments, m, active, hr => by
    let x : Execution := ⟨settings, depth, .call name arguments, m⟩
    have same := noteStart_toSession settings x.statement m
    have leaf : Logged m [x] x.outcome.machine := .leaf x
    have outcome : x.outcome = runCall (Method.invoke settings depth) name arguments
        (noteStart settings x.statement m) := by
      rw [Execution.outcome, run]
    change Logged m (x :: log settings depth called x.statement m) x.outcome.machine
    rw [log, callee?]
    generalize noteStart settings (.call name arguments) m = n at same outcome ⊢
    have ready : n.Ready active := ⟨by rw [same]; exact hr.current, by rw [same]; exact hr.sound⟩
    rw [runCall] at outcome
    cases hm : n.store.methodNamed? n.current name.text with
    | none => exact leaf
    | some callee =>
      rw [hm] at outcome
      cases ha : checkAll (n.store.view n.current) arguments with
      | error f => exact leaf
      | ok _ =>
        rw [ha] at outcome
        refine .around (x := x) same rfl ?_
        rw [outcome]
        exact hc n active name.text callee ready hm
  | .branch location condition body, m, active, hr => by
    let x : Execution := ⟨settings, depth, .branch location condition body, m⟩
    have same := noteStart_toSession settings x.statement m
    have leaf : Logged m [x] x.outcome.machine := .leaf x
    change Logged m (x :: log settings depth called x.statement m) x.outcome.machine
    rw [log]
    have outcome (n : Machine) (hn : noteStart settings x.statement m = n)
        (ht : testCondition (n.store.view n.current) condition .branchCondition location =
          .ok true) : x.outcome = runAll settings (Method.invoke settings depth) body n := by
      rw [Execution.outcome, run]
      change (match testCondition ((noteStart settings x.statement m).store.view
        (noteStart settings x.statement m).current) condition .branchCondition location with
        | .error f => _ | .ok false => _ | .ok true => _ : Outcome Unit) = _
      rw [hn, ht]
    generalize hn : noteStart settings (.branch location condition body) m = n at same ⊢
    have ready : n.Ready active := ⟨by rw [same]; exact hr.current, by rw [same]; exact hr.sound⟩
    split
    · rename_i ht
      refine .around (x := x) same rfl ?_
      rw [outcome n hn ht]
      exact logAll_logged hc body n active ready
    · exact leaf
  | .loop location condition body, m, active, hr =>
    log_loop_logged (logAll_logged hc body) location condition m active hr

theorem logAll_logged {settings : Settings} {depth : Nat}
    {called : Method → Machine → List Execution}
    (hc : ∀ m active name callee, m.Ready active →
      m.store.methodNamed? m.current name = some callee →
      Logged m (called callee m) (Method.invoke settings depth callee m).machine) :
    ∀ (b : Block) (m : Machine) (active : List Nat), m.Ready active →
      Logged m (logAll settings depth called b m)
        (runAll settings (Method.invoke settings depth) b m).machine
  | [], m, active, hr => by
    rw [logAll, runAll]
    exact .nil rfl (.refl m)
  | s :: ss, m, active, hr => by
    have first := log_logged hc s m active hr
    rw [logAll, runAll]
    generalize run settings (Method.invoke settings depth) s m = o at first ⊢
    rcases o with ⟨f | ⟨⟩, m'⟩
    · simpa using first
    · obtain ⟨active', -, hr'⟩ := first.reaches.ready active hr
      exact first.append hr (logAll_logged hc ss m' active' hr')

end

theorem methodTemplate_vacant {m : Machine} {active : List Nat} {name : String} {callee : Method}
    (hr : m.Ready active) (hm : m.store.methodNamed? m.current name = some callee) :
    ∃ owner, m.store.methodOwner? m.current name = some owner ∧
      m.store.Vacant owner callee.template := by
  obtain ⟨owner, a, ho, ha, hmem⟩ := Store.mem_of_methodNamed? hm
  exact ⟨owner, ho, (hr.sound.template owner a callee ha hmem).1⟩

theorem called_logged (settings : Settings) (depth : Nat) (m : Machine) (active : List Nat)
    (name : String) (callee : Method) (hr : m.Ready active)
    (hm : m.store.methodNamed? m.current name = some callee) :
    Logged m (Method.log settings depth callee m)
      (Method.invoke settings depth callee m).machine := by
  induction depth generalizing m active name callee with
  | zero => exact .nil rfl (.refl m)
  | succ depth ih =>
    obtain ⟨owner, -, hv⟩ := methodTemplate_vacant hr hm
    have inside := Reaches.inside hv
    obtain ⟨active', -, hr'⟩ := inside.ready active hr
    exact (logAll_logged ih callee.body _ active' hr').widen inside rfl rfl

theorem Block.log_logged (settings : Settings) (program : Block) {m : Machine}
    {active : List Nat} (hr : m.Ready active) :
    Logged m (program.log settings m) (program.run settings m).machine :=
  logAll_logged (called_logged settings _) program m active hr

/-! ## Where bodies start -/

structure Machine.Fresh (outer : Nat) (m : Machine) : Prop where
  newest : m.store.scopes.size = m.current + 1
  scope : ∃ a, m.store.scopes[m.current]? = some a ∧ a.parent = some outer ∧
    a.vars = [] ∧ a.methods = []

theorem Machine.inside_fresh {m : Machine} {outer template : Nat}
    (hv : m.store.Vacant outer template) : (m.inside template).Fresh outer := by
  obtain ⟨a, ha, hrest⟩ := hv.empty
  have store : (m.inside template).store = m.store.add a := by
    simp [inside, Store.copy, ha]
  refine ⟨?_, a, ?_, hrest⟩
  · rw [store]
    simp [inside, Store.add, Store.next]
  · rw [store, Store.getElem?_add]
    exact if_pos rfl

theorem roundStarts_fresh {template outer : Nat} {body : Machine → Outcome Unit}
    (hs : ∀ m, Safe m (body m).machine) (hf : ∀ m, Steady (some m.current) m (body m))
    (again : Store Value → Except Failure Bool) (left : Nat) (m : Machine)
    (hv : m.store.Vacant outer template) :
    ∀ q ∈ roundStarts template body again left m,
      m.store.scopes.size ≤ q.current ∧ q.Fresh outer := by
  induction left generalizing m with
  | zero => simp [roundStarts]
  | succ left ih =>
    intro q hq
    have vacant : (m.within template body).machine.store.Vacant outer template :=
      within_vacant hs hv
    have size := (within_steady m template hf).frame.size_le
    rw [roundStarts] at hq
    rcases List.mem_cons.1 hq with rfl | hq
    · exact ⟨Nat.le_refl _, Machine.inside_fresh hv⟩
    · generalize m.within template body = o at hq vacant size
      rcases o with ⟨f | ⟨⟩, m'⟩
      · cases hq
      · dsimp only at hq
        split at hq
        · obtain ⟨hle, fresh⟩ := ih m' vacant q hq
          exact ⟨Nat.le_trans size hle, fresh⟩
        · cases hq

theorem Execution.starts_fresh {x : Execution} {active : List Nat} (hr : x.machine.Ready active) :
    ∀ q ∈ x.starts, ∃ outer, x.home? = some outer ∧
      x.machine.store.scopes.size ≤ q.machine.current ∧ q.machine.Fresh outer := by
  obtain ⟨settings, depth, s, m⟩ := x
  have same := noteStart_toSession settings s m
  intro q hq
  cases s with
  | call name arguments =>
    simp only [starts, Statement.callee?] at hq
    generalize noteStart settings (.call name arguments) m = n at same hq
    have ready : n.Ready active := ⟨by rw [same]; exact hr.current, by rw [same]; exact hr.sound⟩
    split at hq
    · cases hq
    · rename_i callee hc
      obtain rfl := List.mem_singleton.1 hq
      split at hc
      · rename_i hm _
        cases hc
        obtain ⟨owner, ho, hv⟩ := methodTemplate_vacant ready hm
        refine ⟨owner, ?_, ?_, Machine.inside_fresh hv⟩
        · rw [same] at ho
          exact ho
        · exact Nat.le_of_eq (congrArg (fun s : Session => s.store.scopes.size) same.symm)
      · cases hc
  | loop location condition body =>
    refine ⟨m.current, rfl, ?_⟩
    obtain ⟨k, hk, rfl⟩ := List.mem_map.1 hq
    simp only [Statement.loopStarts] at hk
    split at hk
    · cases hk
    · have same' := (Machine.note_toSession _ settings ("while " ++ condition.render)).trans same
      generalize Machine.note _ settings ("while " ++ condition.render) = n at same' hk
      have vacant := Machine.entered_vacant (m := n) (by rw [same']; exact hr.sound)
        (by rw [same']; exact hr.current)
      obtain ⟨hle, fresh⟩ := roundStarts_fresh (runAll_safe settings depth body)
        (runAll_steady settings depth body) _ _ _ vacant k hk
      have size := Nat.le_trans n.frame_enter.size_le hle
      rw [same'] at fresh size
      exact ⟨size, fresh⟩
  | declare _ _ => cases hq
  | method _ _ _ => cases hq
  | assign _ _ => cases hq
  | branch _ _ _ => cases hq

end ScopedScript
