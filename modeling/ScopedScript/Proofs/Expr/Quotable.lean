import ScopedScript.Expr.Eval
import ScopedScript.Proofs.Expr.RoundTrip

namespace ScopedScript

namespace Number

theorem quote_not_mem_natDigits (n : Nat) : '"' ∉ natDigits n := fun h =>
  absurd (Text.isDigit_of_mem_natDigits h) (by decide)

theorem quote_not_mem_signText (negative : Bool) : '"' ∉ signText negative := by
  cases negative <;> decide

theorem quote_not_mem_positional {digits : List Char} (h : '"' ∉ digits) (power : Int) :
    '"' ∉ positional digits power := by
  cases power with
  | ofNat p =>
    have whole : '"' ∉ digits.take (p + 1) := fun hc => h (List.mem_of_mem_take hc)
    have fraction : '"' ∉ digits.drop (p + 1) := fun hc => h (List.mem_of_mem_drop hc)
    simp only [positional]
    split <;> simp_all
  | negSucc p => simp [positional, h]

theorem quote_not_mem_scientific {digits : List Char} (h : '"' ∉ digits) (l : Layout)
    (power : Int) : '"' ∉ scientific l digits power := by
  have whole : '"' ∉ digits.take 1 := fun hc => h (List.mem_of_mem_take hc)
  have fraction : '"' ∉ digits.drop 1 := fun hc => h (List.mem_of_mem_drop hc)
  have exponent := quote_not_mem_natDigits power.natAbs
  simp only [scientific, padLeft]
  split <;> split <;> simp_all

theorem quote_not_mem_text (x : Float) : '"' ∉ (text x).toList := by
  rw [text, String.toList_ofList]
  cases parts x with
  | nan => decide
  | infinite negative => cases negative <;> decide
  | finite negative mantissa exponent =>
    have sign := quote_not_mem_signText negative
    have digits := quote_not_mem_natDigits (shortest mantissa exponent).digits
    have decimal : '"' ∉ (shortest mantissa exponent).text layout := by
      simp only [Decimal.text]
      split
      · exact quote_not_mem_positional digits _
      · exact quote_not_mem_scientific digits _ _
    simp only [Parts.text]
    split <;> simp_all

theorem quote_not_mem_intText (n : Int) : '"' ∉ (intText n).toList := by
  cases n with
  | ofNat n => simpa [intText] using quote_not_mem_natDigits n
  | negSucc n => simpa [intText] using quote_not_mem_natDigits (n + 1)

end Number

namespace Value

/-- A text that can be written between quotation marks. Other values are written without. -/
def Quotable : Value → Prop
  | text s => '"' ∉ s.toList
  | _ => True

theorem Quotable.toText {v : Value} (h : v.Quotable) : '"' ∉ v.toText.toList := by
  cases v with
  | null => decide
  | bool b => cases b <;> decide
  | number x =>
    simp only [Value.toText, numberText]
    split
    · exact Number.quote_not_mem_intText _
    · exact Number.quote_not_mem_text x
  | text s => exact h

theorem quotable_of_literal? {t : Token} {v : Value} (h : t.value.Quotable)
    (hv : t.literal? = some v) : v.Quotable := by
  unfold Token.literal? at hv
  split at hv <;> cases hv <;> trivial

end Value

theorem Lexicon.Makes.quotable {l : Lexicon} {t : Token} (h : l.Makes t) : t.value.Quotable := by
  obtain ⟨⟨shape, chars, place⟩, c, cs, n, ht, rfl, hm⟩ := h
  dsimp only at hm
  cases shape with
  | blank | stray => cases ht
  | number | fixed =>
    cases ht
    trivial
  | text =>
    obtain ⟨s, unquoted, rfl⟩ := text_of_munch hm ht
    exact unquoted
  | word =>
    simp only [token?] at ht
    split at ht
    · cases ht
      trivial
    · cases ht
      cases munched hm with
      | word letter =>
        have letters : ∀ d ∈ c :: cs.take (cs.takeWhile Text.isLetter).length,
            Text.isLetter d = true := by
          rw [← List.prefix_iff_eq_take.1 (List.takeWhile_prefix _)]
          exact List.forall_mem_cons.2 ⟨letter, fun d => List.mem_takeWhile_imp⟩
        intro hin
        rw [String.toList_ofList] at hin
        exact absurd (letters '"' hin) (by decide)

namespace TextOperand

theorem withoutFirst_subset (part cs : List Char) : withoutFirst part cs ⊆ cs := by
  induction cs with
  | nil => exact List.Subset.refl _
  | cons c cs ih =>
    rw [withoutFirst]
    split
    · exact List.drop_subset _ _
    · exact List.cons_subset_cons c ih

theorem quote_not_mem_of_repeatText {s t : String} {count : Nat} (hs : '"' ∉ s.toList)
    (h : repeatText s count = .ok t) : '"' ∉ t.toList := by
  unfold repeatText at h
  split at h
  · cases h
  split at h
  · cases h
    decide
  split at h
  · cases h
  split at h <;> cases h
  simp [hs]

theorem quotable_of_applyRepetition {op : Token} {s : String} {count : Numeral} {v : Value}
    (hs : '"' ∉ s.toList) (h : applyRepetition op s count = .ok v) : v.Quotable := by
  unfold applyRepetition at h
  split at h
  · cases h
  · cases h
  · split at h
    · cases h
      exact quote_not_mem_of_repeatText hs ‹_›
    · cases h

end TextOperand

namespace Value

variable {op : Token} {v w u : Value}

theorem quotable_of_text? {s : String} (hv : v.Quotable) (h : v.text? = some s) :
    '"' ∉ s.toList := by
  cases v with
  | text t =>
    cases h
    exact hv
  | _ => cases h

theorem quotable_of_apply (hv : v.Quotable) (hw : w.Quotable)
    (h : v.textOperand.apply op w.textOperand = .ok u) : u.Quotable := by
  unfold TextOperand.apply at h
  split at h
  -- plus joins what is written, minus leaves out a part of it, and star repeats a text
  · cases h
    have left := hv.toText
    have right := hw.toText
    simp [Quotable, textOperand, left, right]
  · cases h
    intro hin
    rw [String.toList_ofList] at hin
    exact hv.toText (TextOperand.withoutFirst_subset _ _ hin)
  · split at h
    · exact TextOperand.quotable_of_applyRepetition (quotable_of_text? hv ‹_›) h
    · exact TextOperand.quotable_of_applyRepetition (quotable_of_text? hw ‹_›) h
    · cases h
  -- comparisons give booleans
  · cases h
    trivial
  · cases h
    trivial
  · cases h

theorem quotable_of_applyUnary (h : applyUnary op v = .ok u) : u.Quotable := by
  unfold applyUnary at h
  split at h
  · cases h
  · split at h
    · cases h
      trivial
    · cases h

theorem quotable_of_applyBinary (hv : v.Quotable) (hw : w.Quotable)
    (h : applyBinary op v w = .ok u) : u.Quotable := by
  unfold applyBinary at h
  split at h
  · unfold applyNumbers at h
    split at h <;> cases h <;> trivial
  · exact quotable_of_apply hv hw h
  · exact quotable_of_apply hv hw h
  · cases h

end Value

theorem Expr.quotable_of_evaluate {view : View Value} {room : Nat} {e : Expr} {v : Value}
    (literals : ∀ u ∈ e.literals, u.Quotable) (names : ∀ n u, view n = some u → u.Quotable)
    (h : e.evaluate view room = .ok v) : v.Quotable := by
  fun_induction evaluate view room e generalizing v with
  | case1 => cases h
  | case2 _ u =>
    cases h
    exact literals u List.mem_cons_self
  | case3 _ n u hu =>
    cases h
    exact names _ _ hu
  | case4 => cases h
  | case5 _ op e a ha ih => exact Value.quotable_of_applyUnary h
  | case6 => cases h
  | case7 => cases h
  | case8 => cases h
  | case9 _ l op r a ha b hb ihl ihr =>
    have left := ihl (fun u hu => literals u (List.mem_append_left _ hu)) ha
    have right := ihr (fun u hu => literals u (List.mem_append_right _ hu)) hb
    exact Value.quotable_of_applyBinary left right h
  | case10 => cases h
  | case11 => cases h
  | case12 _ l op r a ha hd _ ihl =>
    cases h
    exact ihl (fun u hu => literals u (List.mem_append_left _ hu)) ha
  | case13 _ l op r a ha hd ihl ihr =>
    exact ihr (fun u hu => literals u (List.mem_append_right _ hu)) h

end ScopedScript
