import ScopedScript.Proofs.Expr.OfValue
import ScopedScript.Proofs.Session.Answer
import ScopedScript.Proofs.Store.Regular

namespace ScopedScript

theorem Store.upheld_regular : Upheld (.assigning fun _ => True) Store.Regular where
  body _ _ _ := Block.within_assigning _ fun _ _ => trivial
  push parent h := h.push parent
  copy id h := h.copy id
  declare origin h free _ _ := h.addVariable free _ origin
  assign origin h _ _ _ := h.write _ _ _ origin
  method h free _ _ := h.addMethod free

section

variable {α : Type} {unchanged : Variable α → Variable α → Bool}

theorem mem_changesBy {earlier later : List (Variable α)} (h : (earlier.map Variable.name).Nodup)
    {v w : Variable α} (hw : w ∈ changesBy unchanged earlier later) (hv : v ∈ earlier)
    (named : v.name = w.name) : unchanged v w = false := by
  have found : earlier.find? (fun u => u.name == w.name) = some v :=
    (find?_key_eq_some h).2 ⟨hv, named⟩
  have changed := (List.mem_filter.1 hw).2
  rw [found] at changed
  simpa using changed

theorem changesBy_cons {v w : Variable α} {earlier later : List (Variable α)}
    (named : v.name = w.name) (new : w.name ∉ later.map Variable.name) :
    changesBy unchanged (v :: earlier) (w :: later) =
      (if unchanged v w then [] else [w]) ++ changesBy unchanged earlier later := by
  have others : changesBy unchanged (v :: earlier) later = changesBy unchanged earlier later := by
    refine List.filter_congr fun u hu => ?_
    have other : v.name ≠ u.name := fun same =>
      new (named ▸ same ▸ List.mem_map_of_mem hu)
    simp only [List.find?_cons, beq_false_of_ne other]
  rw [← others]
  unfold changesBy
  simp only [List.filter_cons, List.find?_cons, named, beq_self_eq_true]
  cases unchanged v w <;> rfl

theorem changesBy_nil (later : List (Variable α)) : changesBy unchanged [] later = later :=
  List.filter_eq_self.2 fun _ _ => rfl

def Variable.entry (v : Variable α) : String × α := (v.name, v.value)

theorem map_fst_entry (vars : List (Variable α)) :
    (vars.map Variable.entry).map Prod.fst = vars.map Variable.name :=
  List.map_map

theorem overlay_changesBy_cons {v w : Variable α} {earlier later : List (Variable α)}
    (named : v.name = w.name) (new : w.name ∉ later.map Variable.name) :
    overlay ((v :: earlier).map Variable.entry)
        ((changesBy unchanged (v :: earlier) (w :: later)).map Variable.entry) =
      (v.name, if unchanged v w then v.value else w.value) ::
        overlay (earlier.map Variable.entry)
          ((changesBy unchanged earlier later).map Variable.entry) := by
  -- the other changes are about other names
  have others : v.name ∉
      ((changesBy unchanged earlier later).map Variable.entry).map Prod.fst := by
    rw [map_fst_entry, named]
    exact fun among => new ((List.filter_sublist.map Variable.name).subset among)
  rw [changesBy_cons named new, List.map_cons]
  cases unchanged v w with
  | true => exact overlay_cons others
  | false =>
    have put : putEntry (· == ·) w.name w.value (v.entry :: earlier.map Variable.entry) =
        (v.name, w.value) :: earlier.map Variable.entry := by
      rw [Variable.entry, putEntry, if_pos (beq_iff_eq.2 named)]
    refine Eq.trans ?_ (overlay_cons others)
    exact congrArg (overlay · ((changesBy unchanged earlier later).map Variable.entry)) put

theorem forall₂_overlay_changesBy {R : α → α → Prop} {earlier later : List (Variable α)}
    (same : ∀ v ∈ earlier, ∀ w ∈ later, unchanged v w → R v.value w.value)
    (refl : ∀ w ∈ later, R w.value w.value)
    (names : earlier.map Variable.name <+: later.map Variable.name)
    (distinct : (later.map Variable.name).Nodup) :
    List.Forall₂ (fun e e' => e.1 = e'.1 ∧ R e.2 e'.2)
      (overlay (earlier.map Variable.entry)
        ((changesBy unchanged earlier later).map Variable.entry))
      (later.map Variable.entry) := by
  induction earlier generalizing later with
  | nil =>
    rw [changesBy_nil, List.map_nil, overlay_of_nodup (by rwa [List.nil_append, map_fst_entry]),
      List.nil_append, List.forall₂_map_left_iff, List.forall₂_map_right_iff, List.forall₂_same]
    exact fun w hw => ⟨rfl, refl w hw⟩
  | cons v earlier ih =>
    cases later with
    | nil => simp at names
    | cons w later =>
      obtain ⟨named, names⟩ := List.cons_prefix_cons.1 names
      obtain ⟨new, distinct⟩ := List.nodup_cons.1 distinct
      have rest := ih
        (fun v hv w hw => same v (List.mem_cons_of_mem _ hv) w (List.mem_cons_of_mem _ hw))
        (fun w hw => refl w (List.mem_cons_of_mem _ hw)) names distinct
      rw [overlay_changesBy_cons named new]
      refine .cons ⟨named, ?_⟩ rest
      dsimp only
      split
      · exact same v List.mem_cons_self w List.mem_cons_self ‹_›
      · exact refl w List.mem_cons_self

end

theorem Value.typeName_of_equals {v w : Value} (h : v.equals w) : v.typeName = w.typeName := by
  cases v <;> cases w <;> first | rfl | cases h

theorem Variable.equals_of_unchanged {v w : Variable Value} (number : ¬ v.value.isNaN)
    (h : v.unchanged w) : v.value.equals w.value := by
  simpa [unchanged, number] using h

theorem Variable.not_equals_of_changed {v w : Variable Value} (h : v.unchanged w = false) :
    ¬ v.value.equals w.value := by
  rw [unchanged, Bool.or_eq_false_iff] at h
  exact Bool.not_eq_true _ ▸ h.1

theorem Scope.Extends.keeps_kinds {α : Type} {a b : Scope α} (h : a.Extends b) {made made' : Nat}
    (ha : a.Regular made) (hb : b.Regular made') :
    (∀ name m, a.methodNamed? name = some m →
      b.methodNamed? name = some m ∧ b.variableNamed? name = none) ∧
    ∀ name v, a.variableNamed? name = some v →
      b.methodNamed? name = none ∧ ∃ w, b.variableNamed? name = some w := by
  constructor
  · intro name m found
    obtain ⟨hm, rfl⟩ := ha.methodNamed?_eq_some.1 found
    have kept : m ∈ b.methods := h.methods.subset hm
    exact ⟨hb.methodNamed?_eq_some.2 ⟨kept, rfl⟩,
      hb.variableNamed?_eq_none (List.mem_map_of_mem kept)⟩
  · intro name v found
    obtain ⟨hv, rfl⟩ := ha.variableNamed?_eq_some.1 found
    have kept : v.name ∈ b.vars.map Variable.name := h.names.subset (List.mem_map_of_mem hv)
    obtain ⟨w, hw, named⟩ := List.mem_map.1 kept
    exact ⟨hb.methodNamed?_eq_none kept, w, hb.variableNamed?_eq_some.2 ⟨hw, named⟩⟩

namespace Session

theorem replay_regular (sources : List (Settings × String)) : (replay sources).store.Regular :=
  replay_upheld Store.upheld_regular (fun _ => Block.within_assigning _ fun _ _ => trivial)
    (start_every (Scope.regular_empty _ none 0)) sources

theorem rootVars_eq {s : Session} {a : Scope Value} (ha : s.store.scopes[s.root]? = some a) :
    s.rootVars = a.vars := by
  rw [rootVars, ha]
  rfl

theorem bindings_eq {s : Session} {a : Scope Value} (ha : s.store.scopes[s.root]? = some a) :
    s.bindings = a.vars.map Variable.entry := by
  rw [bindings, Store.snapshot, ha]
  rfl

theorem replay_frame (earlier later : List (Settings × String)) :
    (replay earlier).store.Frame (some 0) (replay (earlier ++ later)).store := by
  have root : (replay earlier).root = 0 := (replay_open earlier).tracking.root_eq
  let Kept (t : Session) : Prop :=
    t.current = 0 ∧ t.root = 0 ∧ (replay earlier).store.Frame (some 0) t.store
  have kept : Kept (replay (earlier ++ later)) := by
    rw [replay, List.foldl_append]
    have start : Kept (replay earlier) := ⟨(replay_current earlier).trans root, root, .refl _ _⟩
    refine List.foldlRecOn (motive := Kept) later _ start ?_
    rintro t ⟨hc, hr, frame⟩ x -
    obtain ⟨-, root, grown, -⟩ := t.run_frame x.1 .standard x.2
    rw [hc] at grown
    exact ⟨root.trans hr, root.trans hr, frame.trans grown⟩
  exact kept.2.2

/-- Whatever sources are handled and however they end, the names of the bindings stay where they are
and new ones come behind them. A method stays the same method and a variable a variable. Where no
value is a number that is no number, putting the changes into the bindings from before gives those
from afterwards, up to the sign of zeros, and every change is one. -/
theorem bindings_grow (earlier later : List (Settings × String)) :
    let s := replay earlier
    let t := replay (earlier ++ later)
    let changed := (changes s.rootVars t.rootVars).map fun v => (v.name, v.value)
    s.bindings.map Prod.fst <+: t.bindings.map Prod.fst ∧
      (∃ a b, s.store.scopes[s.root]? = some a ∧ t.store.scopes[t.root]? = some b ∧
        (∀ name m, a.methodNamed? name = some m →
          b.methodNamed? name = some m ∧ b.variableNamed? name = none) ∧
        ∀ name v, a.variableNamed? name = some v →
          b.methodNamed? name = none ∧ ∃ w, b.variableNamed? name = some w) ∧
      ((∀ e ∈ s.bindings ++ t.bindings, ¬ e.2.isNaN) →
        List.Forall₂ (fun e e' => e.1 = e'.1 ∧ e.2.equals e'.2 ∧ e.2.typeName = e'.2.typeName)
          (overlay s.bindings changed) t.bindings ∧
        ∀ e ∈ changed, ∀ e' ∈ s.bindings, e'.1 = e.1 → ¬ e'.2.equals e.2) := by
  intro s t changed
  have opened := (replay_open earlier).tracking
  have opened' := (replay_open (earlier ++ later)).tracking
  have there : s.root < s.store.scopes.size := by
    rw [opened.root_eq]
    exact opened.size
  have root : t.root = s.root := opened'.root_eq.trans opened.root_eq.symm
  obtain ⟨a, ha⟩ : ∃ a, s.store.scopes[s.root]? = some a := ⟨_, Array.getElem?_eq_getElem there⟩
  obtain ⟨b, found, grown, -⟩ := (replay_frame earlier later).scope s.root a ha
  have hb : t.store.scopes[t.root]? = some b := by
    rw [root]
    exact found
  have regular := replay_regular earlier s.root a ha
  have regular' := replay_regular (earlier ++ later) t.root b hb
  have distinct := (List.nodup_append.1 regular.distinct).1
  have distinct' := (List.nodup_append.1 regular'.distinct).1
  simp only [changed, rootVars_eq ha, rootVars_eq hb, bindings_eq ha, bindings_eq hb]
  refine ⟨?_, ⟨a, b, ha, hb, grown.keeps_kinds regular regular'⟩, fun numbers => ⟨?_, ?_⟩⟩
  · rw [map_fst_entry, map_fst_entry]
    exact grown.names
  · have number (v : Variable Value) (hv : v ∈ a.vars ∨ v ∈ b.vars) : ¬ v.value.isNaN := by
      refine numbers v.entry (List.mem_append.2 (hv.imp ?_ ?_)) <;>
        exact fun hv => List.mem_map_of_mem hv
    have overlaid := forall₂_overlay_changesBy (R := fun u v => u.equals v)
      (fun v hv _ _ => Variable.equals_of_unchanged (number v (.inl hv)))
      (fun w hw => Value.equals_self (number w (.inr hw))) grown.names distinct'
    exact overlaid.imp fun _ _ h => ⟨h.1, h.2, Value.typeName_of_equals h.2⟩
  · intro e he e' he' named
    obtain ⟨w, hw, rfl⟩ := List.mem_map.1 he
    obtain ⟨v, hv, rfl⟩ := List.mem_map.1 he'
    exact Variable.not_equals_of_changed (mem_changesBy distinct hw hv named)

theorem bindings_grow_failing_source :
    let earlier : List (Settings × String) := [({}, "var a = true; var f() \x7b \x7d var z = 0;")]
    let later : List (Settings × String) := [({}, "a = 1; z = -0; var b = \"x\"; f = 2;")]
    let s := replay earlier
    let t := replay (earlier ++ later)
    let changed := (changes s.rootVars t.rootVars).map fun v => (v.name, v.value)
    changed = [("a", .number (Number.ofNat 1)), ("b", .text "x")] ∧
      t.bindings.map Prod.fst = ["a", "z", "b"] ∧
      List.Forall₂ (fun e e' => e.1 = e'.1 ∧ e.2.equals e'.2 ∧ e.2.typeName = e'.2.typeName)
        (overlay s.bindings changed) t.bindings := by
  intro earlier later s t changed
  have numbers : ∀ e ∈ s.bindings ++ t.bindings, ¬ e.2.isNaN := by decide +kernel
  exact ⟨by decide +kernel, by decide +kernel, ((bindings_grow earlier later).2.2 numbers).1⟩

end Session

end ScopedScript
