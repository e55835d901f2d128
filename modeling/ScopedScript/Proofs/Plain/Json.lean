import ScopedScript.Proofs.Number.Finite
import ScopedScript.Proofs.Plain.Meaning

namespace ScopedScript

namespace Number

open Plain.Json

inductive IsUnsigned : List Char → Prop
  | mk {int frac exp : List Char} : IsInt int → IsFrac frac → IsExp exp →
    IsUnsigned (int ++ frac ++ exp)

theorem IsUnsigned.signed {minus cs : List Char} (h : IsUnsigned cs)
    (hm : minus ∈ [[], ['-']]) : IsNumber (minus ++ cs) := by
  obtain ⟨int, frac, exp⟩ := h
  exact .mk hm int frac exp

theorem isUnsigned_int {cs : List Char} (h : IsInt cs) : IsUnsigned cs := by
  simpa using IsUnsigned.mk h .none .none

theorem areDigits_natDigits (n : Nat) : AreDigits (natDigits n) :=
  ⟨Nat.toDigits_ne_nil, fun _ hc => Text.isDigit_of_mem_natDigits hc⟩

theorem isDigit_of_mem_zeros {n : Nat} : ∀ c ∈ List.replicate n '0', c.isDigit := by
  intro c hc
  rw [List.eq_of_mem_replicate hc]
  decide

theorem areDigits_append {cs ds : List Char} (hc : ∀ c ∈ cs, c.isDigit) (hd : AreDigits ds) :
    AreDigits (cs ++ ds) :=
  ⟨List.append_ne_nil_of_right_ne_nil _ hd.1, List.forall_mem_append.2 ⟨hc, hd.2⟩⟩

theorem isInt_natDigits (n : Nat) : IsInt (natDigits n) := by
  by_cases h : n = 0
  · subst h
    exact .zero
  · obtain ⟨c, cs, digits, leading⟩ := natDigits_leading h
    have all := (areDigits_natDigits n).2
    rw [digits] at all ⊢
    obtain ⟨hc, hcs⟩ := List.forall_mem_cons.1 all
    exact .digits hc leading hcs

theorem isNumber_intText (n : Int) : IsNumber (intText n).toList := by
  have unsigned (n : Nat) := isUnsigned_int (isInt_natDigits n)
  cases n with
  | ofNat n =>
    rw [intText, String.toList_ofList]
    exact (unsigned n).signed (.head _)
  | negSucc n =>
    rw [intText, String.toList_ofList]
    exact (unsigned (n + 1)).signed (.tail _ (.head _))

section

variable {c : Char} {cs : List Char} (leading : c ≠ '0') (hd : ∀ d ∈ c :: cs, d.isDigit)

include leading hd

theorem isUnsigned_positional (power : Int) : IsUnsigned (positional (c :: cs) power) := by
  obtain ⟨hc, hcs⟩ := List.forall_mem_cons.1 hd
  cases power with
  | ofNat p =>
    have whole : IsInt (c :: (cs.take p ++
        List.replicate (p + 1 - ((c :: cs).take (p + 1)).length) '0')) :=
      .digits hc leading <| List.forall_mem_append.2
        ⟨fun d hd => hcs d (List.mem_of_mem_take hd), isDigit_of_mem_zeros⟩
    have fraction : AreDigits (if (cs.drop p).isEmpty then ['0'] else cs.drop p) := by
      split
      · exact areDigits_natDigits 0
      · rename_i h
        exact ⟨fun e => h (List.isEmpty_iff.2 e), fun d hd => hcs d (List.mem_of_mem_drop hd)⟩
    simpa [positional] using IsUnsigned.mk whole (.some fraction) .none
  | negSucc p =>
    have fraction : AreDigits (List.replicate p '0' ++ c :: cs) :=
      areDigits_append isDigit_of_mem_zeros ⟨nofun, hd⟩
    simpa [positional] using IsUnsigned.mk .zero (.some fraction) .none

theorem isUnsigned_scientific (l : Layout) (power : Int) :
    IsUnsigned (scientific l (c :: cs) power) := by
  obtain ⟨hc, hcs⟩ := List.forall_mem_cons.1 hd
  have whole : IsInt [c] := .digits hc leading nofun
  have fraction : IsFrac (if cs.isEmpty then [] else '.' :: cs) := by
    split
    · exact .none
    · rename_i h
      exact .some ⟨fun e => h (List.isEmpty_iff.2 e), hcs⟩
  have exponent : AreDigits (padLeft l.exponentDigits (natDigits power.natAbs)) :=
    areDigits_append isDigit_of_mem_zeros (areDigits_natDigits _)
  have sign : [if power < 0 then '-' else '+'] ∈ [[], ['-'], ['+']] := by
    split <;> decide
  simpa [scientific] using IsUnsigned.mk whole fraction (.some (.head _) sign exponent)

end

theorem isUnsigned_text {d : Decimal} {c : Char} {cs : List Char}
    (digits : natDigits d.digits = c :: cs) (leading : c ≠ '0') (l : Layout) :
    IsUnsigned (d.text l) := by
  have all := (areDigits_natDigits d.digits).2
  rw [digits] at all
  simp only [Decimal.text, digits]
  split
  · exact isUnsigned_positional leading all _
  · exact isUnsigned_scientific leading all l _

theorem isNumber_text (negative : Bool) (mantissa : Nat) (exponent : Int) :
    IsNumber (Parts.finite negative mantissa exponent).text := by
  refine IsUnsigned.signed ?_ (by cases negative <;> decide)
  split
  · exact .mk .zero (.some (areDigits_natDigits 0)) .none
  · rename_i h
    obtain ⟨c, cs, digits, leading⟩ := shortest_leading h exponent
    exact isUnsigned_text digits leading layout

end Number

namespace Plain

namespace Json

theorem isHexDigit_digitChar {n : Nat} (h : n < 16) : IsHexDigit n.digitChar := by
  have digits : ∀ n < 16, n.digitChar ∈ "0123456789abcdefABCDEF".toList := by decide
  exact digits n h

theorem codeOf_hexPadded {n : Nat} (h : n < 0x20) : CodeOf n ('u' :: Text.hexPadded 4 n) := by
  have codes : ∀ n < 0x20, Text.hexPadded 4 n =
      ['0', '0', (n / 16).digitChar, (n % 16).digitChar] := by decide
  have values : ∀ n < 0x20, hexValue (Text.hexPadded 4 n) = n := by decide
  have value := values n h
  have zero : IsHexDigit '0' := isHexDigit_digitChar (by decide : 0 < 16)
  rw [codes n h] at value ⊢
  exact .mk zero zero (isHexDigit_digitChar (by omega)) (isHexDigit_digitChar (by omega)) value

theorem charOf_escape (c : Char) : CharOf c (escape c) := by
  unfold escape
  split
  case h_8 c quote backslash _ _ _ _ _ =>
    split
    · exact .code (codeOf_hexPadded ‹_›)
    · exact .unescaped (Nat.not_lt.1 ‹_›) quote backslash
  all_goals exact .escaped (by decide)

theorem stringOf_string (s : String) : StringOf s (string s) := by
  refine .mk ?_
  induction s.toList with
  | nil => exact .nil
  | cons c cs ih => exact .cons (charOf_escape c) ih

theorem isNumber_real {x : Float} (h : x.isFinite) : IsNumber (real x) := by
  obtain ⟨negative, mantissa, exponent, parts⟩ := Number.isFinite_iff_parts.1 h
  rw [real, parts]
  exact Number.isNumber_text negative mantissa exponent

structure IsMarked (cs : List Char) : Prop where
  closed : IsClosed cs
  foreign : ∃ c ∈ bare false cs, foreign c

theorem isMarked_real {x : Float} (h : ¬ x.isFinite) : IsMarked (real x) := by
  have marked {cs : List Char} (quote : '"' ∉ cs) (hc : ∃ c ∈ cs, foreign c) : IsMarked cs :=
    ⟨isClosed_of_not_mem quote, by rwa [bare_eq_self quote]⟩
  rw [real]
  cases hp : Number.parts x with
  | nan => exact marked (by decide) ⟨'N', by decide, by decide⟩
  | infinite negative =>
    cases negative <;> exact marked (by decide) ⟨'I', by decide, by decide⟩
  | finite negative mantissa exponent =>
    exact absurd (Number.isFinite_iff_parts.2 ⟨negative, mantissa, exponent, hp⟩) h

/-- What is written for a part of plain data: a phrase if all its numbers are finite, and otherwise
a text that is none of JSON. -/
structure IsWritten (finite : Prop) (p : Phrase) (cs : List Char) : Prop where
  derives : finite → Derives p cs
  marked : ¬ finite → IsMarked cs

inductive AreWritten (p : Phrase) : (finite : Prop) → List (List Char) → Prop
  | nil : AreWritten p True []
  | cons {a b : Prop} {cs : List Char} {rest : List (List Char)} : IsWritten a p cs →
    AreWritten p b rest → AreWritten p (a ∧ b) (cs :: rest)

section

variable {a b : Prop} {p q : Phrase} {cs ds left right : List Char}

theorem IsMarked.within (h : IsMarked cs) (hl : IsClosed left) (hr : IsClosed right) :
    IsMarked (left ++ cs ++ right) := by
  obtain ⟨closed, c, hc, letter⟩ := h
  refine ⟨(hl.append closed).append hr, c, ?_, letter⟩
  rw [hl.append closed, hl]
  exact List.mem_append_left _ (List.mem_append_right _ hc)

theorem IsWritten.closed (h : IsWritten a p cs) : IsClosed cs := by
  by_cases finite : a
  · exact (h.derives finite).isPlain.closed
  · exact (h.marked finite).closed

theorem isWritten_of_derives (h : Derives p cs) : IsWritten True p cs :=
  ⟨fun _ => h, fun hn => absurd trivial hn⟩

theorem IsWritten.within (h : IsWritten a p cs) (hl : IsClosed left) (hr : IsClosed right)
    (rule : Derives p cs → Derives q (left ++ cs ++ right)) :
    IsWritten a q (left ++ cs ++ right) :=
  ⟨fun finite => rule (h.derives finite), fun infinite => (h.marked infinite).within hl hr⟩

theorem IsWritten.more (h : IsWritten a p cs) {comma : List Char} (hc : Sign ',' comma)
    (h' : IsWritten b (.several p) ds) : IsWritten (a ∧ b) (.several p) (cs ++ comma ++ ds) := by
  have sign : IsClosed comma := (hc.isPlain (by decide)).closed
  refine ⟨fun finite => .more (h.derives finite.1) hc (h'.derives finite.2), fun infinite => ?_⟩
  by_cases ha : a
  · have hb : ¬ b := fun hb => infinite ⟨ha, hb⟩
    simpa using (h'.marked hb).within (h.closed.append sign) isClosed_nil
  · simpa using (h.marked ha).within isClosed_nil (sign.append h'.closed)

theorem AreWritten.intercalate {texts : List (List Char)} (h : AreWritten p a texts)
    {comma : List Char} (hc : Sign ',' comma) (some : texts ≠ []) :
    IsWritten a (.several p) (comma.intercalate texts) := by
  induction h with
  | nil => exact absurd rfl some
  | cons first others ih =>
    cases others with
    | nil =>
      rw [List.intercalate_singleton]
      exact ⟨fun finite => .one (first.derives finite.1),
        fun infinite => first.marked fun ha => infinite ⟨ha, trivial⟩⟩
    | cons second others =>
      rw [List.intercalate_cons_cons]
      exact first.more hc (ih nofun)

theorem AreWritten.optional {texts : List (List Char)} (h : AreWritten p a texts)
    {comma : List Char} (hc : Sign ',' comma) :
    IsWritten a (.optional (.several p)) (comma.intercalate texts) := by
  cases texts with
  | nil =>
    cases h
    exact isWritten_of_derives .none
  | cons _ _ =>
    have several := h.intercalate hc nofun
    exact ⟨fun finite => .some (several.derives finite), several.marked⟩

end

/-! ### Brackets -/

theorem isBlank_lineStart (pretty : Bool) (level : Nat) : IsBlank (lineStart pretty level) := by
  cases pretty with
  | false => exact isBlank_nil
  | true =>
    refine List.forall_mem_cons.2 ⟨by decide, fun c hc => ?_⟩
    rw [List.eq_of_mem_replicate hc]
    decide

theorem sign_separator (pretty : Bool) (level : Nat) : Sign ',' (separator pretty level) := by
  cases pretty with
  | false => exact sign_cons (List.forall_mem_singleton.2 (.head _))
  | true => exact sign_cons (isBlank_lineStart true level)

theorem bracketed_eq (pretty : Bool) (level : Nat) (opening closing : Char)
    (texts : List (List Char)) :
    ∃ l r, Sign opening l ∧ Sign closing r ∧ bracketed pretty level opening closing texts =
      l ++ (separator pretty (level + 1)).intercalate texts ++ r := by
  cases texts with
  | nil => exact ⟨[opening], [closing], sign_cons isBlank_nil, sign_cons isBlank_nil, rfl⟩
  | cons _ _ =>
    refine ⟨opening :: lineStart pretty (level + 1), lineStart pretty level ++ [closing],
      sign_cons (isBlank_lineStart pretty _), sign_append (isBlank_lineStart pretty _), ?_⟩
    simp [bracketed]

theorem isWritten_bracketed {opening closing : Char} {p : Phrase}
    (ho : familiar opening) (hc : familiar closing)
    (rule : ∀ {l cs r}, Sign opening l → Derives (.optional (.several p)) cs → Sign closing r →
      Derives .value (l ++ cs ++ r))
    (pretty : Bool) (level : Nat) {a : Prop} {texts : List (List Char)}
    (h : AreWritten p a texts) :
    IsWritten a .value (bracketed pretty level opening closing texts) := by
  obtain ⟨l, r, left, right, layout⟩ := bracketed_eq pretty level opening closing texts
  have items := h.optional (sign_separator pretty (level + 1))
  rw [layout]
  exact items.within (left.isPlain ho).closed (right.isPlain hc).closed fun inside =>
    rule left inside right

theorem IsWritten.member {a : Prop} {content : List Char} (h : IsWritten a .value content)
    (name : String) : IsWritten a .member (string name ++ ':' :: ' ' :: content) := by
  have colon : Sign ':' [':', ' '] := sign_cons (List.forall_mem_singleton.2 (.head _))
  have quoted := (stringOf_string name).isString
  have closed : IsClosed (string name ++ [':', ' ']) :=
    quoted.isPlain.closed.append (colon.isPlain (by decide)).closed
  have written := h.within closed isClosed_nil fun value => by
    rw [List.append_nil]
    exact .member quoted colon value
  simpa using written

end Json

open Json

mutual

def IsFinite : Plain → Prop
  | real x => x.isFinite
  | list items => AreFinite items
  | map entries => EntriesFinite entries
  | _ => True

def AreFinite : List Plain → Prop
  | [] => True
  | item :: items => item.IsFinite ∧ AreFinite items

def EntriesFinite : List (String × Plain) → Prop
  | [] => True
  | (_, content) :: entries => content.IsFinite ∧ EntriesFinite entries

end

mutual

theorem isWritten_encode (pretty : Bool) :
    ∀ (p : Plain) (level : Nat), IsWritten p.IsFinite .value (encode pretty level p)
  | null, _ => isWritten_of_derives (.word (.tail _ (.head _)))
  | bool false, _ => isWritten_of_derives (.word (.head _))
  | bool true, _ => isWritten_of_derives (.word (.tail _ (.tail _ (.head _))))
  | int n, _ => isWritten_of_derives (.number (Number.isNumber_intText n))
  | real _, _ => ⟨fun h => .number (isNumber_real h), isMarked_real⟩
  | text s, _ => isWritten_of_derives (.string (stringOf_string s).isString)
  | list items, level =>
    isWritten_bracketed (by decide) (by decide) .array pretty level
      (areWritten_encodeItems pretty items (level + 1))
  | map entries, level =>
    isWritten_bracketed (by decide) (by decide) .object pretty level
      (areWritten_encodeEntries pretty entries (level + 1))

theorem areWritten_encodeItems (pretty : Bool) :
    ∀ (items : List Plain) (level : Nat),
      AreWritten .value (AreFinite items) (encodeItems pretty level items)
  | [], _ => .nil
  | item :: items, level =>
    .cons (isWritten_encode pretty item level) (areWritten_encodeItems pretty items level)

theorem areWritten_encodeEntries (pretty : Bool) :
    ∀ (entries : List (String × Plain)) (level : Nat),
      AreWritten .member (EntriesFinite entries) (encodeEntries pretty level entries)
  | [], _ => .nil
  | (name, content) :: entries, level =>
    .cons ((isWritten_encode pretty content level).member name)
      (areWritten_encodeEntries pretty entries level)

end

theorem isText_toJson_iff (pretty : Bool) (p : Plain) :
    IsText (p.toJson pretty).toList ↔ p.IsFinite := by
  have written := isWritten_encode pretty p 0
  rw [toJson, String.toList_ofList]
  refine ⟨fun h => by_contra fun infinite => ?_, fun finite => ?_⟩
  · obtain ⟨c, hc, letter⟩ := (written.marked infinite).foreign
    exact h.isPlain.no_foreign c hc letter
  · simpa using IsText.mk isBlank_nil (written.derives finite) isBlank_nil

end Plain

end ScopedScript
