import ScopedScript.Plain.Json

/-!
# The grammar of JSON

The rules of RFC 8259, each as the texts that it derives. `bare` is what of a text stands outside
its strings; words and numbers are all that has letters there, and none of them has a capital other
than that of an exponent (`IsText.isPlain`).
-/

namespace ScopedScript.Plain.Json

/-! ## Rules -/

def IsBlank (cs : List Char) : Prop := ∀ c ∈ cs, c ∈ [' ', '\t', '\n', '\r']

inductive Sign (c : Char) : List Char → Prop
  | mk {before after : List Char} : IsBlank before → IsBlank after → Sign c (before ++ c :: after)

theorem isBlank_nil : IsBlank [] := fun _ hc => absurd hc List.not_mem_nil

theorem sign_cons {c : Char} {cs : List Char} (h : IsBlank cs) : Sign c (c :: cs) :=
  .mk isBlank_nil h

theorem sign_append {c : Char} {cs : List Char} (h : IsBlank cs) : Sign c (cs ++ [c]) :=
  .mk h isBlank_nil

def IsHexDigit (c : Char) : Prop := c ∈ "0123456789abcdefABCDEF".toList

inductive IsChar : List Char → Prop
  | unescaped {c : Char} : 0x20 ≤ c.toNat → c ≠ '"' → c ≠ '\\' → IsChar [c]
  | escaped {c : Char} : c ∈ ['"', '\\', '/', 'b', 'f', 'n', 'r', 't'] → IsChar ['\\', c]
  | code {a b c d : Char} : IsHexDigit a → IsHexDigit b → IsHexDigit c → IsHexDigit d →
    IsChar ['\\', 'u', a, b, c, d]

inductive IsChars : List Char → Prop
  | nil : IsChars []
  | cons {c cs : List Char} : IsChar c → IsChars cs → IsChars (c ++ cs)

inductive IsString : List Char → Prop
  | mk {cs : List Char} : IsChars cs → IsString ('"' :: cs ++ ['"'])

def AreDigits (cs : List Char) : Prop := cs ≠ [] ∧ ∀ c ∈ cs, c.isDigit

inductive IsInt : List Char → Prop
  | zero : IsInt ['0']
  | digits {c : Char} {cs : List Char} : c.isDigit → c ≠ '0' → (∀ d ∈ cs, d.isDigit) →
    IsInt (c :: cs)

inductive IsFrac : List Char → Prop
  | none : IsFrac []
  | some {cs : List Char} : AreDigits cs → IsFrac ('.' :: cs)

inductive IsExp : List Char → Prop
  | none : IsExp []
  | some {e sign cs : List Char} : e ∈ [['e'], ['E']] → sign ∈ [[], ['-'], ['+']] →
    AreDigits cs → IsExp (e ++ sign ++ cs)

inductive IsNumber : List Char → Prop
  | mk {minus int frac exp : List Char} : minus ∈ [[], ['-']] → IsInt int → IsFrac frac →
    IsExp exp → IsNumber (minus ++ (int ++ frac ++ exp))

inductive Phrase
  | value
  | member
  | optional (p : Phrase)
  | several (p : Phrase)

inductive Derives : Phrase → List Char → Prop
  | word {cs : List Char} : cs ∈ ["false".toList, "null".toList, "true".toList] →
    Derives .value cs
  | number {cs : List Char} : IsNumber cs → Derives .value cs
  | string {cs : List Char} : IsString cs → Derives .value cs
  | array {l items r : List Char} : Sign '[' l → Derives (.optional (.several .value)) items →
    Sign ']' r → Derives .value (l ++ items ++ r)
  | object {l members r : List Char} : Sign '\x7b' l →
    Derives (.optional (.several .member)) members → Sign '\x7d' r →
    Derives .value (l ++ members ++ r)
  | member {name colon content : List Char} : IsString name → Sign ':' colon →
    Derives .value content → Derives .member (name ++ colon ++ content)
  | none {p : Phrase} : Derives (.optional p) []
  | some {p : Phrase} {cs : List Char} : Derives p cs → Derives (.optional p) cs
  | one {p : Phrase} {cs : List Char} : Derives p cs → Derives (.several p) cs
  | more {p : Phrase} {cs comma rest : List Char} : Derives p cs → Sign ',' comma →
    Derives (.several p) rest → Derives (.several p) (cs ++ comma ++ rest)

inductive IsText : List Char → Prop
  | mk {before cs after : List Char} : IsBlank before → Derives .value cs → IsBlank after →
    IsText (before ++ cs ++ after)

/-! ## Characters of numbers -/

def isNumeric (c : Char) : Bool := c.isDigit || ['+', '-', '.', 'e', 'E'].contains c

theorem isNumeric_of_isDigit {c : Char} (h : c.isDigit) : isNumeric c := by
  rw [isNumeric, h, Bool.true_or]

theorem numeric_of_digits {cs : List Char} (h : ∀ c ∈ cs, c.isDigit) : ∀ c ∈ cs, isNumeric c :=
  fun c hc => isNumeric_of_isDigit (h c hc)

theorem numeric_of_mem {texts : List (List Char)} {cs : List Char}
    (h : texts.all (·.all isNumeric)) (hcs : cs ∈ texts) : ∀ c ∈ cs, isNumeric c :=
  List.all_eq_true.1 (List.all_eq_true.1 h cs hcs)

theorem IsInt.numeric {cs : List Char} (h : IsInt cs) : cs ≠ [] ∧ ∀ c ∈ cs, isNumeric c := by
  cases h with
  | zero => exact ⟨nofun, List.forall_mem_singleton.2 (by decide)⟩
  | digits hc _ hcs =>
    exact ⟨nofun, List.forall_mem_cons.2 ⟨isNumeric_of_isDigit hc, numeric_of_digits hcs⟩⟩

theorem IsFrac.numeric {cs : List Char} (h : IsFrac cs) : ∀ c ∈ cs, isNumeric c := by
  cases h with
  | none => exact nofun
  | some hd => exact List.forall_mem_cons.2 ⟨by decide, numeric_of_digits hd.2⟩

theorem IsExp.numeric {cs : List Char} (h : IsExp cs) : ∀ c ∈ cs, isNumeric c := by
  cases h with
  | none => exact nofun
  | some he hs hd =>
    have letter := numeric_of_mem (by decide) he
    have sign := numeric_of_mem (by decide) hs
    exact List.forall_mem_append.2
      ⟨List.forall_mem_append.2 ⟨letter, sign⟩, numeric_of_digits hd.2⟩

theorem IsNumber.numeric {cs : List Char} (h : IsNumber cs) :
    cs ≠ [] ∧ ∀ c ∈ cs, isNumeric c := by
  obtain ⟨hm, hi, hf, he⟩ := h
  have minus := numeric_of_mem (by decide) hm
  refine ⟨List.append_ne_nil_of_right_ne_nil _ (List.append_ne_nil_of_left_ne_nil
    (List.append_ne_nil_of_left_ne_nil hi.numeric.1 _) _), ?_⟩
  exact List.forall_mem_append.2 ⟨minus, List.forall_mem_append.2
    ⟨List.forall_mem_append.2 ⟨hi.numeric.2, hf.numeric⟩, he.numeric⟩⟩

/-! ## Outside of strings -/

def bare : (inside : Bool) → List Char → List Char
  | _, [] => []
  | false, '"' :: cs => bare true cs
  | false, c :: cs => c :: bare false cs
  | true, '"' :: cs => bare false cs
  | true, '\\' :: _ :: cs => bare true cs
  | true, _ :: cs => bare true cs

def IsClosed (cs : List Char) : Prop :=
  ∀ rest, bare false (cs ++ rest) = bare false cs ++ bare false rest

def foreign (c : Char) : Bool := c.isUpper && c != 'E'

def familiar (c : Char) : Bool := c != '"' && !foreign c

/-- No foreign letter stands outside the strings of a text, and they end there. -/
structure IsPlain (cs : List Char) : Prop where
  closed : IsClosed cs
  no_foreign : ∀ c ∈ bare false cs, ¬ foreign c

section

variable {a b cs : List Char}

theorem isClosed_nil : IsClosed [] := fun _ => rfl

theorem IsClosed.append (ha : IsClosed a) (hb : IsClosed b) : IsClosed (a ++ b) := fun rest => by
  rw [List.append_assoc, ha, hb, ha, List.append_assoc]

theorem bare_of_not_mem (h : '"' ∉ cs) (rest : List Char) :
    bare false (cs ++ rest) = cs ++ bare false rest := by
  induction cs with
  | nil => rfl
  | cons c cs ih =>
    obtain ⟨hc, hcs⟩ := not_or.1 (mt List.mem_cons.2 h)
    rw [List.cons_append, bare, ih hcs]
    · rfl
    · exact fun e => hc e.symm

theorem bare_eq_self (h : '"' ∉ cs) : bare false cs = cs := by
  simpa [bare] using bare_of_not_mem h []

theorem isClosed_of_not_mem (h : '"' ∉ cs) : IsClosed cs := fun rest => by
  rw [bare_of_not_mem h, bare_eq_self h]

theorem IsPlain.append (ha : IsPlain a) (hb : IsPlain b) : IsPlain (a ++ b) := by
  refine ⟨ha.closed.append hb.closed, fun c hc => ?_⟩
  rw [ha.closed, List.mem_append] at hc
  exact hc.elim (ha.no_foreign c) (hb.no_foreign c)

theorem isPlain_of_all (h : cs.all familiar) : IsPlain cs := by
  have all := List.all_eq_true.1 h
  have quote : '"' ∉ cs := fun hc => absurd (all _ hc) (by decide)
  refine ⟨isClosed_of_not_mem quote, fun c hc hf => ?_⟩
  rw [bare_eq_self quote] at hc
  simpa [familiar, hf] using all c hc

theorem isPlain_of_mem {texts : List (List Char)} (h : texts.all (·.all familiar))
    (hc : cs ∈ texts) : IsPlain cs :=
  isPlain_of_all (List.all_eq_true.1 h cs hc)

end

/-! ### Strings -/

theorem bare_inside_cons {c : Char} (quote : c ≠ '"') (escape : c ≠ '\\') (cs : List Char) :
    bare true (c :: cs) = bare true cs := by
  rw [bare]
  · exact quote
  · exact fun _ _ h => absurd h escape

theorem IsHexDigit.bare_inside {c : Char} (h : IsHexDigit c) (cs : List Char) :
    bare true (c :: cs) = bare true cs := by
  have others : "0123456789abcdefABCDEF".toList.all (fun c => c != '"' && c != '\\') := by decide
  have other := List.all_eq_true.1 others c h
  simp only [Bool.and_eq_true, bne_iff_ne] at other
  exact bare_inside_cons other.1 other.2 cs

theorem IsChar.bare_inside {c : List Char} (h : IsChar c) (cs : List Char) :
    bare true (c ++ cs) = bare true cs := by
  cases h with
  | unescaped _ quote escape => exact bare_inside_cons quote escape cs
  | escaped _ => rfl
  | code ha hb hc hd =>
    exact (ha.bare_inside _).trans <| (hb.bare_inside _).trans <| (hc.bare_inside _).trans <|
      hd.bare_inside cs

theorem IsChars.bare_inside {cs : List Char} (h : IsChars cs) (rest : List Char) :
    bare true (cs ++ rest) = bare true rest := by
  induction h with
  | nil => rfl
  | cons hc _ ih => rw [List.append_assoc, hc.bare_inside, ih]

theorem IsString.isPlain {cs : List Char} (h : IsString cs) : IsPlain cs := by
  obtain @⟨inner, hi⟩ := h
  have skipped (rest : List Char) :
      bare false ('"' :: inner ++ ['"'] ++ rest) = bare false rest := by
    rw [List.append_assoc]
    exact hi.bare_inside _
  have none : bare false ('"' :: inner ++ ['"']) = [] := by simpa [bare] using skipped []
  refine ⟨fun rest => by rw [skipped, none, List.nil_append], ?_⟩
  rw [none]
  exact nofun

/-! ### Signs, words and numbers -/

theorem isPlain_of_isBlank {cs : List Char} (h : IsBlank cs) : IsPlain cs := by
  have blanks : [' ', '\t', '\n', '\r'].all familiar := by decide
  exact isPlain_of_all (List.all_eq_true.2 fun c hc => List.all_eq_true.1 blanks c (h c hc))

theorem Sign.isPlain {c : Char} {cs : List Char} (h : Sign c cs) (hc : familiar c) :
    IsPlain cs := by
  obtain ⟨before, after⟩ := h
  rw [← List.singleton_append]
  have sign : IsPlain [c] := isPlain_of_all (by simpa using hc)
  exact (isPlain_of_isBlank before).append (sign.append (isPlain_of_isBlank after))

theorem familiar_of_isDigit {c : Char} (h : c.isDigit) : familiar c := by
  have quote : c ≠ '"' := by
    rintro rfl
    exact absurd h (by decide)
  have upper : c.isUpper = false := by
    refine Bool.eq_false_iff.2 fun hu => ?_
    have high : c.val ≤ '9'.val := of_decide_eq_true (Bool.and_eq_true_iff.1 h).2
    have low : 'A'.val ≤ c.val ∧ c.val ≤ 'Z'.val := of_decide_eq_true hu
    exact absurd (UInt32.le_trans low.1 high) (by decide)
  simp [familiar, foreign, quote, upper]

theorem familiar_of_isNumeric {c : Char} (h : isNumeric c) : familiar c := by
  have others : ['+', '-', '.', 'e', 'E'].all familiar := by decide
  rcases Bool.or_eq_true_iff.1 h with digit | other
  · exact familiar_of_isDigit digit
  · exact List.all_eq_true.1 others c (List.contains_iff_mem.1 other)

theorem IsNumber.isPlain {cs : List Char} (h : IsNumber cs) : IsPlain cs :=
  isPlain_of_all (List.all_eq_true.2 fun c hc => familiar_of_isNumeric (h.numeric.2 c hc))

/-! ### Texts -/

theorem Derives.isPlain {p : Phrase} {cs : List Char} (h : Derives p cs) : IsPlain cs := by
  induction h with
  | word hw => exact isPlain_of_mem (by decide) hw
  | number hn => exact hn.isPlain
  | string hs => exact hs.isPlain
  | array l _ r ih =>
    exact ((l.isPlain (by decide)).append ih).append (r.isPlain (by decide))
  | object l _ r ih =>
    exact ((l.isPlain (by decide)).append ih).append (r.isPlain (by decide))
  | member hn colon _ ih => exact (hn.isPlain.append (colon.isPlain (by decide))).append ih
  | none => exact isPlain_of_all rfl
  | some _ ih => exact ih
  | one _ ih => exact ih
  | more _ comma _ ih rest => exact (ih.append (comma.isPlain (by decide))).append rest

theorem IsText.isPlain {cs : List Char} (h : IsText cs) : IsPlain cs := by
  obtain ⟨before, value, after⟩ := h
  exact ((isPlain_of_isBlank before).append value.isPlain).append (isPlain_of_isBlank after)

end ScopedScript.Plain.Json
