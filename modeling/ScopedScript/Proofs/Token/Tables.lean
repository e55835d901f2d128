import ScopedScript.Proofs.Datum.Entries
import ScopedScript.Token.Lexicon

namespace ScopedScript

theorem ok_of_bind {ε α β : Type} {x : Except ε α} {f : α → Except ε β} {b : β}
    (h : x >>= f = .ok b) : ∃ a, x = .ok a ∧ f a = .ok b := by
  cases x with
  | error e => cases h
  | ok a => exact ⟨a, rfl, h⟩

theorem exists_of_mapM {ε α β : Type} {f : α → Except ε β} {as : List α} {bs : List β}
    (h : as.mapM f = .ok bs) : ∀ b ∈ bs, ∃ a ∈ as, f a = .ok b := by
  induction as generalizing bs with
  | nil =>
    cases h
    exact nofun
  | cons a as ih =>
    rw [List.mapM_cons] at h
    obtain ⟨b, hb, h⟩ := ok_of_bind h
    obtain ⟨bs', hbs, h⟩ := ok_of_bind h
    cases h
    intro b' hb'
    rcases List.mem_cons.1 hb' with rfl | hb'
    · exact ⟨a, List.mem_cons_self, hb⟩
    · obtain ⟨a', ha', h'⟩ := ih hbs b' hb'
      exact ⟨a', List.mem_cons_of_mem a ha', h'⟩

theorem eq_map_of_mapM {ε α β : Type} {f : α → Except ε β} {g : β → α}
    (hg : ∀ {a b}, f a = .ok b → a = g b) {as : List α} {bs : List β} (h : as.mapM f = .ok bs) :
    as = bs.map g := by
  induction as generalizing bs with
  | nil =>
    cases h
    rfl
  | cons a as ih =>
    rw [List.mapM_cons] at h
    obtain ⟨b, hb, h⟩ := ok_of_bind h
    obtain ⟨bs', hbs, h⟩ := ok_of_bind h
    cases h
    rw [List.map_cons, ← hg hb, ← ih hbs]

namespace Lexicon

structure Proper (l : Lexicon) : Prop where
  fixed : ∀ s ∈ l.spellings, s.kind.isScanned = false
  spelled : ∀ e ∈ l.keywords, ∃ s ∈ l.spellings, s.kind = e.2 ∧ s.text = e.1

theorem Proper.of_keyword? {l : Lexicon} (hl : l.Proper) {word : String} {kind : TokenKind}
    (h : l.keyword? word = some kind) :
    kind.isScanned = false ∧ ∃ s ∈ l.spellings, s.kind = kind ∧ s.text = word := by
  obtain ⟨l₁, l₂, split, -⟩ := List.lookup_eq_some_iff.1 h
  obtain ⟨s, hs, hk, htext⟩ := hl.spelled (word, kind)
    (split ▸ List.mem_append_right _ List.mem_cons_self)
  have fixed := hl.fixed s hs
  rw [hk] at fixed
  exact ⟨fixed, s, hs, hk, htext⟩

theorem proper_standard : Proper standard :=
  ⟨by decide +kernel, by decide +kernel⟩

theorem eq_text_of_text? {d : Datum} {s : String} (h : d.text? = some s) : d = Datum.text s := by
  unfold Datum.text? at h
  split at h
  · cases h
    rfl
  · cases h

theorem kindNamed_eq_ok {name : Datum} {kind : TokenKind} (h : kindNamed name = .ok kind) :
    name = Datum.text kind.name := by
  unfold kindNamed at h
  split at h
  · rename_i found
    cases h
    obtain ⟨text, ht, named⟩ := Option.bind_eq_some_iff.1 found
    rw [eq_text_of_text? ht, TokenKind.name_of_named? named]
  · cases h

theorem readSpelling_eq_ok {entry : Datum × Datum} {s : Spelling}
    (h : readSpelling entry = .ok s) :
    entry = (Datum.text s.kind.name, Datum.text s.text) ∧ s.kind.isScanned = false := by
  obtain ⟨kind, named, h⟩ := ok_of_bind h
  by_cases scanned : kind.isScanned = true
  · rw [if_pos scanned] at h
    cases h
  · rw [if_neg scanned] at h
    split at h
    · rename_i s' hs
      cases h
      obtain ⟨text, ht, spelled⟩ := Option.bind_eq_some_iff.1 hs
      obtain ⟨rfl, rfl⟩ := Spelling.text_of_ofText? spelled
      exact ⟨Prod.ext (kindNamed_eq_ok named) (eq_text_of_text? ht), by simpa using scanned⟩
    · cases h

theorem readKeyword_eq_ok {spellings : List Spelling} {name : Datum} {e : String × TokenKind}
    (h : readKeyword spellings name = .ok e) :
    ∃ s, spellings.find? (fun s => s.kind == e.2) = some s ∧ s.text = e.1 := by
  obtain ⟨kind, -, h⟩ := ok_of_bind h
  split at h
  · rename_i s hs
    cases h
    exact ⟨s, hs, rfl⟩
  · cases h

/-- Tables that a lexicon is made from: the text of a kind stands behind its name and is not empty,
and a keyword is the text of the kind that it means. -/
structure MadeFrom (l : Lexicon) (tables : LexiconTables) : Prop where
  texts : collectEntries Datum.equals tables.lexemes =
    l.spellings.map fun s => (Datum.text s.kind.name, Datum.text s.text)
  nonempty : ∀ s ∈ l.spellings, s.text ≠ ""
  fixed : ∀ s ∈ l.spellings, s.kind.isScanned = false
  keywords : ∀ e ∈ l.keywords, ∃ s, l.spelling? e.2 = some s ∧ s.text = e.1

theorem madeFrom_of_ofTables {tables : LexiconTables} {l : Lexicon}
    (h : ofTables tables = .ok l) : l.MadeFrom tables := by
  obtain ⟨spellings, hs, h⟩ := ok_of_bind h
  obtain ⟨keywords, hk, h⟩ := ok_of_bind h
  obtain ⟨levels, -, h⟩ := ok_of_bind h
  cases h
  refine ⟨eq_map_of_mapM (fun read => (readSpelling_eq_ok read).1) hs,
    fun s _ => s.text_ne_empty, fun s h => ?_, fun e h => ?_⟩
  · obtain ⟨entry, -, read⟩ := exists_of_mapM hs s h
    exact (readSpelling_eq_ok read).2
  · obtain ⟨name, -, read⟩ := exists_of_mapM hk e (mem_collectEntries h)
    exact readKeyword_eq_ok read

theorem proper_of_ofTables {tables : LexiconTables} {l : Lexicon} (h : ofTables tables = .ok l) :
    l.Proper := by
  have made := madeFrom_of_ofTables h
  refine ⟨made.fixed, fun e he => ?_⟩
  obtain ⟨s, found, text⟩ := made.keywords e he
  exact ⟨s, List.mem_of_find?_eq_some found, by simpa using List.find?_some found, text⟩

end Lexicon

end ScopedScript
