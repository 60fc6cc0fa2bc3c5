import ClosedForm.Poly.Text
import ClosedForm.Proofs.Poly.LowestTerms
import ClosedForm.Proofs.Text.Numerals
import ClosedForm.Proofs.Text.Parentheses

/-!
# The printed form determines the polynomial

A polynomial is printed without its zeros, without the coefficient 1 and the exponents 0 and 1, and
with its signs between the terms; the divider 1 is not printed, and neither is the divider of zero.
Nothing else is lost.  A text is taken apart again from the outside: a fraction begins like no
numerator and ends with its divider, the terms of a numerator stand between blanks, and a term is cut
at its `x`.

What this needs of the way in which exponents and fractions are written is `Script.Legible`, and the
three scripts are legible.

* `term_inj`, `terms_injective` — a term, and all terms of a numerator.
* `nonzeroTerms_eq_iff` — the terms that are not zero are the trimmed coefficients.
* `Script.Legible.render_eq_iff` — **equal texts are equal trimmed polynomials,** zero apart.
* `render_determines_poly` collects this for the three scripts.
-/

namespace ClosedForm
namespace Text

/-! ## Exponents -/

lemma exists_digitChar {c : Char} (h : c.isDigit = true) : ∃ i < 10, Nat.digitChar i = c := by
  have hcode : 48 ≤ c.toNat ∧ c.toNat ≤ 57 := by
    simpa [Char.isDigit, UInt32.le_iff_toNat_le] using h
  obtain ⟨hlower, hupper⟩ := hcode
  refine ⟨c.toNat - 48, by omega, Char.toNat_inj.1 ?_⟩
  rw [Nat.toNat_digitChar_of_lt_ten (by omega)]
  omega

/-- The digit of which a character is the superscript form. -/
def regularDigit (c : Char) : Char :=
  ("0123456789".toList.find? fun d => superscriptDigit d == c).getD c

lemma regularDigit_superscriptDigit {c : Char} (h : c.isDigit = true) :
    regularDigit (superscriptDigit c) = c := by
  have hten : ∀ i < 10, regularDigit (superscriptDigit (Nat.digitChar i)) = Nat.digitChar i := by
    decide
  obtain ⟨i, hi, rfl⟩ := exists_digitChar h
  exact hten i hi

lemma superscript_injective : Function.Injective superscript := by
  have hleft (n : ℕ) : ((decimal n).map superscriptDigit).map regularDigit = decimal n := by
    rw [List.map_map]
    conv_rhs => rw [← List.map_id (decimal n)]
    exact List.map_congr_left fun c hc => regularDigit_superscriptDigit (isDigit_of_mem_decimal hc)
  intro m n h
  have hdigits := congrArg (List.map regularDigit) (String.ofList_injective h)
  rw [hleft, hleft] at hdigits
  exact decimal_injective hdigits

lemma caret_injective : Function.Injective caret := by
  intro m n h
  exact decimal_injective (List.cons.inj (String.ofList_injective h)).2

lemma bracedCaret_injective : Function.Injective bracedCaret := by
  intro m n h
  have hbraced := (List.cons.inj (List.cons.inj (String.ofList_injective h)).2).2
  exact decimal_injective (List.append_cancel_right hbraced)

/-- The characters that set the terms of a numerator apart. -/
def separators : List Char := ['(', ')', ' ', '+', '-']

lemma not_mem_separators_of_isDigit {c : Char} (h : c.isDigit = true) : c ∉ separators :=
  not_mem_of_isDigit h rfl

lemma not_mem_separators_of_mem_superscript {n : ℕ} {c : Char} (h : c ∈ (superscript n).toList) :
    c ∉ separators := by
  have hten : ∀ i < 10, superscriptDigit (Nat.digitChar i) ∉ separators := by decide
  rw [superscript, String.toList_ofList, List.mem_map] at h
  obtain ⟨d, hd, rfl⟩ := h
  obtain ⟨i, hi, rfl⟩ := exists_digitChar (isDigit_of_mem_decimal hd)
  exact hten i hi

lemma not_mem_separators_of_mem_caret {n : ℕ} {c : Char} (h : c ∈ (caret n).toList) :
    c ∉ separators := by
  rw [caret, String.toList_ofList, List.mem_cons] at h
  rcases h with rfl | h
  · decide
  · exact not_mem_separators_of_isDigit (isDigit_of_mem_decimal h)

lemma not_mem_separators_of_mem_bracedCaret {n : ℕ} {c : Char} (h : c ∈ (bracedCaret n).toList) :
    c ∉ separators := by
  rw [bracedCaret, String.toList_ofList, List.mem_cons, List.mem_cons, List.mem_append,
    List.mem_singleton] at h
  rcases h with rfl | rfl | h | rfl
  · decide
  · decide
  · exact not_mem_separators_of_isDigit (isDigit_of_mem_decimal h)
  · decide

end Text

namespace Poly

/-! ## Legible scripts -/

/-- Exponents of different powers differ, and neither they nor the way in which a fraction is written
can be taken for something else: an exponent has no sign, blank or parenthesis in it, a fraction begins
like no numerator, and what stands before its divider cannot belong to a divider. -/
structure Script.Legible (script : Script) : Prop where
  exponent_injective : Function.Injective script.exponent
  exponent_ne_empty : ∀ i, script.exponent i ≠ ""
  exponent_plain : ∀ i, ∀ c ∈ (script.exponent i).toList, c ∉ Text.separators
  fraction : ∃ first opening middle last closing,
    (first.isDigit = false ∧ first ≠ '-' ∧ first ≠ 'x') ∧
    (last.isDigit = false ∧ last ≠ '-') ∧
    ∀ n d : String, (script.fraction n d).toList =
      first :: opening ++ n.toList ++ (middle ++ [last]) ++ d.toList ++ closing

lemma legible_unicode : unicode.Legible where
  exponent_injective := Text.superscript_injective
  exponent_ne_empty i := by
    simp [unicode, Text.superscript, Text.decimal]
  exponent_plain _ _ := Text.not_mem_separators_of_mem_superscript
  fraction := by
    refine ⟨'(', [], [')'], '/', [], by decide, by decide, fun n d => ?_⟩
    simp [unicode]

lemma legible_ascii : ascii.Legible where
  exponent_injective := Text.caret_injective
  exponent_ne_empty i := by
    simp [ascii, Text.caret]
  exponent_plain _ _ := Text.not_mem_separators_of_mem_caret
  fraction := by
    refine ⟨'(', [], [')'], '/', [], by decide, by decide, fun n d => ?_⟩
    simp [ascii]

lemma legible_latex : latex.Legible where
  exponent_injective := Text.bracedCaret_injective
  exponent_ne_empty i := by
    simp [latex, Text.bracedCaret]
  exponent_plain _ _ := Text.not_mem_separators_of_mem_bracedCaret
  fraction := by
    refine ⟨'\\', "frac\x7b".toList, ['\x7d'], '\x7b', ['\x7d'], by decide, by decide,
      fun n d => ?_⟩
    simp [latex]

/-! ## One term -/

variable {script : Script}

/-- The coefficient of a term, as far as it is written. -/
def coefficientPart (i c : ℕ) : List Char := if i ≠ 0 ∧ c = 1 then [] else Text.decimal c

/-- The power of a term, as far as it is written. -/
def powerPart (script : Script) (i : ℕ) : List Char :=
  if i = 0 then [] else 'x' :: if i = 1 then [] else (script.exponent i).toList

lemma toList_term (script : Script) (i c : ℕ) :
    (term script i c).toList = coefficientPart i c ++ powerPart script i := by
  have hdigits : (Text.integer c).toList = Text.decimal c := String.toList_ofList
  unfold term coefficientPart powerPart
  by_cases hi : i = 0
  · simp [hi, hdigits]
  · by_cases hc : c = 1
    · by_cases hone : i = 1 <;> simp [hi, hc, hone]
    · by_cases hone : i = 1 <;> simp [hi, hc, hone, hdigits]

lemma isDigit_of_mem_coefficientPart {i c : ℕ} {d : Char} (h : d ∈ coefficientPart i c) :
    d.isDigit = true := by
  unfold coefficientPart at h
  split at h
  · cases h
  · exact Text.isDigit_of_mem_decimal h

lemma uncut_coefficientPart (i c : ℕ) : Text.Uncut ['x'] (coefficientPart i c) := by
  apply Text.uncut_of_forall
  intro d hd
  exact Text.not_mem_of_isDigit (isDigit_of_mem_coefficientPart hd) rfl

lemma stopped_powerPart (script : Script) (i : ℕ) : Text.Stopped ['x'] (powerPart script i) := by
  unfold powerPart
  split <;> simp

lemma powerPart_inj (hscript : script.Legible) {i j : ℕ}
    (h : powerPart script i = powerPart script j) : i = j := by
  have hne (k : ℕ) : (script.exponent k).toList ≠ [] := by
    simpa using hscript.exponent_ne_empty k
  unfold powerPart at h
  by_cases hi : i = 0
  · by_cases hj : j = 0
    · rw [hi, hj]
    · simp [hi, hj] at h
  · by_cases hj : j = 0
    · simp [hi, hj] at h
    · rw [if_neg hi, if_neg hj] at h
      have hexponent := (List.cons.inj h).2
      by_cases hione : i = 1
      · by_cases hjone : j = 1
        · rw [hione, hjone]
        · rw [if_pos hione, if_neg hjone] at hexponent
          exact absurd hexponent.symm (hne j)
      · by_cases hjone : j = 1
        · rw [if_neg hione, if_pos hjone] at hexponent
          exact absurd hexponent (hne i)
        · rw [if_neg hione, if_neg hjone] at hexponent
          exact hscript.exponent_injective (String.toList_inj.1 hexponent)

lemma coefficientPart_inj {i c d : ℕ} (h : coefficientPart i c = coefficientPart i d) : c = d := by
  have hne (k : ℕ) : Text.decimal k ≠ [] := Nat.toDigits_ne_nil
  unfold coefficientPart at h
  split at h <;> rename_i hc <;> split at h <;> rename_i hd
  · rw [hc.2, hd.2]
  · exact absurd h.symm (hne d)
  · exact absurd h (hne c)
  · exact Text.decimal_injective h

/-- **A term is cut at its `x`.** -/
lemma term_inj (hscript : script.Legible) {i j c d : ℕ}
    (h : (term script i c).toList = (term script j d).toList) : i = j ∧ c = d := by
  rw [toList_term, toList_term] at h
  obtain ⟨hcoefficient, hpower⟩ :=
    Text.append_inj_of_uncut (uncut_coefficientPart i c) (uncut_coefficientPart j d)
      (stopped_powerPart script i) (stopped_powerPart script j) h
  obtain rfl := powerPart_inj hscript hpower
  exact ⟨rfl, coefficientPart_inj hcoefficient⟩

lemma not_mem_separators_of_mem_term (hscript : script.Legible) {i c : ℕ} {d : Char}
    (h : d ∈ (term script i c).toList) : d ∉ Text.separators := by
  rw [toList_term, List.mem_append] at h
  rcases h with h | h
  · exact Text.not_mem_separators_of_isDigit (isDigit_of_mem_coefficientPart h)
  · unfold powerPart at h
    split at h
    · cases h
    · rcases List.mem_cons.1 h with rfl | h
      · decide
      · split at h
        · cases h
        · exact hscript.exponent_plain i d h

/-! ## The terms of a numerator -/

/-- The sign of a coefficient. -/
def sign (c : Int) : Char := if c < 0 then '-' else '+'

lemma eq_of_sign_eq {c d : Int} (hsign : sign c = sign d) (habs : c.natAbs = d.natAbs) : c = d := by
  unfold sign at hsign
  split at hsign <;> split at hsign
  · omega
  · cases hsign
  · cases hsign
  · omega

/-- The first term of a numerator. -/
def leading (script : Script) (t : Int × ℕ) : List Char :=
  (joiner true t.1).toList ++ (term script t.2 t.1.natAbs).toList

/-- A later term of a numerator, from its sign to the blank after it. -/
def signed (script : Script) (t : Int × ℕ) : List Char :=
  sign t.1 :: (' ' :: (term script t.2 t.1.natAbs).toList ++ [' '])

/-- The later terms of a numerator. -/
def following (script : Script) (ts : List (Int × ℕ)) : List Char :=
  (String.join (ts.map fun (c, i) => joiner false c ++ term script i c.natAbs)).toList

lemma toList_terms_cons (script : Script) (t : Int × ℕ) (ts : List (Int × ℕ)) :
    (terms script (t :: ts)).toList = leading script t ++ following script ts := by
  simp only [terms, leading, following, String.toList_append]

/-- Without any term it is written as if the first one were zero. -/
lemma toList_terms_nil (script : Script) :
    (terms script []).toList = leading script (0, 0) ++ following script [] := by
  simp [terms, leading, following, joiner, term, Text.integer, Text.decimal, String.join]

/-- The later terms, moved by one blank: each begins with its sign. -/
lemma following_append_blank (script : Script) (ts : List (Int × ℕ)) :
    following script ts ++ [' '] = ' ' :: (ts.map (signed script)).flatten := by
  induction ts with
  | nil => simp [following, String.join]
  | cons t ts ih =>
      have hjoiner : (joiner false t.1).toList = [' ', sign t.1, ' '] := by
        unfold joiner sign
        by_cases h : t.1 < 0 <;> simp [h]
      have hcons : following script (t :: ts) =
          ' ' :: sign t.1 :: ' ' :: (term script t.2 t.1.natAbs).toList ++ following script ts := by
        simp only [following, String.toList_join, List.map_cons, List.flatMap_cons,
          String.toList_append, hjoiner]
        rfl
      rw [hcons, List.append_assoc, ih, List.map_cons, List.flatten_cons, signed]
      simp

lemma stopped_following (script : Script) (ts : List (Int × ℕ)) :
    Text.Stopped [' '] (following script ts) := by
  have h := following_append_blank script ts
  cases hfollowing : following script ts with
  | nil => exact Text.stopped_nil
  | cons c cs =>
      rw [hfollowing, List.cons_append] at h
      rw [(List.cons.inj h).1]
      simp

/-- A term has no separator in it, so it is not cut at any of them. -/
lemma uncut_term (hscript : script.Legible) {stops : List Char} (hstops : stops ⊆ Text.separators)
    (i c : ℕ) : Text.Uncut stops (term script i c).toList := by
  have hall : '(' :: ')' :: stops ⊆ Text.separators := by
    simpa [Text.separators] using hstops
  exact Text.uncut_of_forall fun d hd hmem => not_mem_separators_of_mem_term hscript hd (hall hmem)

lemma uncut_leading (hscript : script.Legible) (t : Int × ℕ) :
    Text.Uncut [' '] (leading script t) := by
  have hjoiner : Text.Uncut [' '] (joiner true t.1).toList := by
    rw [joiner, if_pos rfl]
    split
    · exact Text.uncut_of_forall (by simp)
    · rfl
  rw [Text.Uncut, leading, Text.depthAfter_append_of_eq hjoiner]
  exact uncut_term hscript (by simp [Text.separators]) t.2 t.1.natAbs

lemma piece_signed (hscript : script.Legible) (t : Int × ℕ) :
    Text.Piece ['+', '-'] (signed script t) := by
  have hsign : sign t.1 ∈ ['+', '-'] := by
    unfold sign
    split <;> decide
  have hterm : Text.Uncut ['+', '-'] (term script t.2 t.1.natAbs).toList :=
    uncut_term hscript (by simp [Text.separators]) t.2 t.1.natAbs
  exact .mk hsign (hterm.between_blanks (by decide))

lemma leading_injective (hscript : script.Legible) : Function.Injective (leading script) := by
  -- A sign before one of them only would be a character of the other's term.
  have hminus {i c : ℕ} : '-' ∉ (term script i c).toList :=
    fun hmem => not_mem_separators_of_mem_term hscript hmem (by decide)
  rintro ⟨c, i⟩ ⟨d, j⟩ h
  simp only [leading, joiner, if_true] at h
  by_cases hc : c < 0
  · by_cases hd : d < 0
    · rw [if_pos hc, if_pos hd] at h
      obtain ⟨rfl, habs⟩ := term_inj hscript (List.append_cancel_left h)
      rw [show c = d by omega]
    · rw [if_pos hc, if_neg hd] at h
      have hmem : '-' ∈ "".toList ++ (term script j d.natAbs).toList := by
        rw [← h]
        simp
      exact absurd (by simpa using hmem) hminus
  · by_cases hd : d < 0
    · rw [if_neg hc, if_pos hd] at h
      have hmem : '-' ∈ "".toList ++ (term script i c.natAbs).toList := by
        rw [h]
        simp
      exact absurd (by simpa using hmem) hminus
    · rw [if_neg hc, if_neg hd] at h
      obtain ⟨rfl, habs⟩ := term_inj hscript (List.append_cancel_left h)
      rw [show c = d by omega]

lemma signed_injective (hscript : script.Legible) : Function.Injective (signed script) := by
  rintro ⟨c, i⟩ ⟨d, j⟩ h
  obtain ⟨hsign, h⟩ := List.cons.inj h
  obtain ⟨rfl, habs⟩ := term_inj hscript (List.append_cancel_right (List.cons.inj h).2)
  obtain rfl : c = d := eq_of_sign_eq hsign habs
  rfl

lemma following_injective (hscript : script.Legible) : Function.Injective (following script) := by
  intro ts us h
  have hpieces (vs : List (Int × ℕ)) : ∀ p ∈ vs.map (signed script), Text.Piece ['+', '-'] p := by
    intro p hp
    obtain ⟨t, -, rfl⟩ := List.mem_map.1 hp
    exact piece_signed hscript t
  have hmoved := congrArg (· ++ [' ']) h
  simp only [following_append_blank] at hmoved
  have hsigned := Text.eq_of_flatten_eq (hpieces ts) (hpieces us) (List.cons.inj hmoved).2
  exact List.map_injective_iff.2 (signed_injective hscript) hsigned

/-- **A numerator determines its terms,** unless one of them is zero. -/
lemma terms_inj (hscript : script.Legible) {ts us : List (Int × ℕ)} (hts : ∀ t ∈ ts, t.1 ≠ 0)
    (hus : ∀ u ∈ us, u.1 ≠ 0) (h : terms script ts = terms script us) : ts = us := by
  have hsplit {t u : Int × ℕ} {ts us : List (Int × ℕ)}
      (h : leading script t ++ following script ts = leading script u ++ following script us) :
      t = u ∧ ts = us := by
    obtain ⟨hfirst, hrest⟩ := Text.append_inj_of_uncut (uncut_leading hscript t)
      (uncut_leading hscript u) (stopped_following script ts) (stopped_following script us) h
    exact ⟨leading_injective hscript hfirst, following_injective hscript hrest⟩
  have hchars := congrArg String.toList h
  cases ts with
  | nil =>
      cases us with
      | nil => rfl
      | cons u us =>
          rw [toList_terms_nil, toList_terms_cons] at hchars
          obtain ⟨rfl, -⟩ := hsplit hchars
          exact absurd rfl (hus _ List.mem_cons_self)
  | cons t ts =>
      cases us with
      | nil =>
          rw [toList_terms_nil, toList_terms_cons] at hchars
          obtain ⟨rfl, -⟩ := hsplit hchars
          exact absurd rfl (hts _ List.mem_cons_self)
      | cons u us =>
          rw [toList_terms_cons, toList_terms_cons] at hchars
          obtain ⟨rfl, rfl⟩ := hsplit hchars
          rfl

/-! ## Fractions -/

/-- A numerator begins with a digit, with a sign or with `x`. -/
lemma exists_head_terms (script : Script) (ts : List (Int × ℕ)) :
    ∃ c cs, (terms script ts).toList = c :: cs ∧ (c.isDigit = true ∨ c = '-' ∨ c = 'x') := by
  have hterm (i c : ℕ) : ∃ d ds, (term script i c).toList = d :: ds ∧
      (d.isDigit = true ∨ d = '-' ∨ d = 'x') := by
    rw [toList_term]
    cases hcoefficient : coefficientPart i c with
    | nil =>
        unfold coefficientPart at hcoefficient
        split at hcoefficient
        · rename_i h
          exact ⟨'x', _, by rw [List.nil_append, powerPart, if_neg h.1], .inr (.inr rfl)⟩
        · exact absurd hcoefficient Nat.toDigits_ne_nil
    | cons d ds =>
        have hd : d ∈ coefficientPart i c := by simp [hcoefficient]
        exact ⟨d, _, List.cons_append, .inl (isDigit_of_mem_coefficientPart hd)⟩
  have hleading (t : Int × ℕ) (rest : List Char) : ∃ c cs, leading script t ++ rest = c :: cs ∧
      (c.isDigit = true ∨ c = '-' ∨ c = 'x') := by
    obtain ⟨d, ds, hchars, hd⟩ := hterm t.2 t.1.natAbs
    unfold leading joiner
    by_cases hneg : t.1 < 0
    · exact ⟨'-', _, by simp [hneg]; rfl, .inr (.inl rfl)⟩
    · exact ⟨d, _, by simp [hneg, hchars]; rfl, hd⟩
  cases ts with
  | nil =>
      rw [toList_terms_nil]
      exact hleading _ _
  | cons t ts =>
      rw [toList_terms_cons]
      exact hleading _ _

lemma fraction_ne_terms (hscript : script.Legible) (n d : String) (ts : List (Int × ℕ)) :
    script.fraction n d ≠ terms script ts := by
  obtain ⟨first, opening, middle, last, closing, ⟨hdigit, hminus, hx⟩, -, hfraction⟩ :=
    hscript.fraction
  intro h
  obtain ⟨c, cs, hterms, hc⟩ := exists_head_terms script ts
  rw [← h, hfraction] at hterms
  obtain rfl := (List.cons.inj hterms).1
  rcases hc with hc | hc | hc
  · rw [hdigit] at hc
    cases hc
  · exact hminus hc
  · exact hx hc

/-- **A fraction is cut at the last character that cannot belong to its divider.** -/
lemma fraction_inj (hscript : script.Legible) {n m : String} {v w : Int}
    (h : script.fraction n (Text.integer v) = script.fraction m (Text.integer w)) :
    n = m ∧ v = w := by
  obtain ⟨first, opening, middle, last, closing, -, ⟨hdigit, hminus⟩, hfraction⟩ := hscript.fraction
  have hdivider (u : Int) : Text.Uncut [last] (Text.integer u).toList.reverse := by
    apply Text.uncut_of_forall
    intro c hc
    rcases Text.isDigit_or_of_mem_integer (List.mem_reverse.1 hc) with hc | rfl
    · exact Text.not_mem_of_isDigit hc (by simp [hdigit])
    · simp [hminus.symm]
  -- Read from its end, a fraction begins with its divider.
  have hreverse (n d : String) :
      (first :: opening ++ n.toList ++ (middle ++ [last]) ++ d.toList).reverse =
        d.toList.reverse ++ last :: (middle.reverse ++ (first :: opening ++ n.toList).reverse) := by
    simp
  have hchars := congrArg String.toList h
  rw [hfraction, hfraction] at hchars
  have hreversed := congrArg List.reverse (List.append_cancel_right hchars)
  rw [hreverse, hreverse] at hreversed
  have hlast (cs : List Char) : Text.Stopped [last] (last :: cs) :=
    Text.stopped_cons_iff.2 (List.mem_singleton.2 rfl)
  obtain ⟨hdividers, hrest⟩ :=
    Text.append_inj_of_uncut (hdivider v) (hdivider w) (hlast _) (hlast _) hreversed
  have hnumerators :=
    List.reverse_injective (List.append_cancel_left (List.cons.inj hrest).2)
  exact ⟨String.toList_inj.1 (List.append_cancel_left hnumerators),
    Text.integer_injective (String.toList_inj.1 (List.reverse_injective hdividers))⟩

/-! ## What is shown of a polynomial -/

lemma mem_nonzeroTerms_iff (cs : List Int) (c : Int) (i : ℕ) :
    (c, i) ∈ nonzeroTerms cs ↔ c ≠ 0 ∧ cs.getD i 0 = c := by
  rw [nonzeroTerms, List.mem_reverse, List.mem_filter, List.mk_mem_zipIdx_iff_getElem?,
    List.getD_eq_getElem?_getD]
  cases cs[i]? with
  | none =>
      refine ⟨fun h => absurd h.1 (by simp), ?_⟩
      rintro ⟨hne, hzero⟩
      exact absurd hzero.symm hne
  | some d =>
      have hne : ((c, i).1 != 0) = true ↔ c ≠ 0 := bne_iff_ne
      rw [Option.some.injEq, hne, and_comm, Option.getD_some]

lemma ne_zero_of_mem_nonzeroTerms {cs : List Int} {t : Int × ℕ} (h : t ∈ nonzeroTerms cs) :
    t.1 ≠ 0 :=
  ((mem_nonzeroTerms_iff cs t.1 t.2).1 h).1

lemma nonzeroTerms_trimZeros (cs : List Int) : nonzeroTerms (trimZeros cs) = nonzeroTerms cs := by
  induction cs using List.reverseRecOn with
  | nil => rfl
  | append_singleton cs c ih =>
      rw [trimZeros_eq_rdropWhile, List.rdropWhile_concat]
      by_cases hc : c = 0
      · rw [if_pos (by simp [hc]), ← trimZeros_eq_rdropWhile, ih, hc]
        simp [nonzeroTerms, List.zipIdx_append]
      · rw [if_neg (by simp [hc])]

/-- **The terms that are not zero are the trimmed coefficients.** -/
lemma nonzeroTerms_eq_iff (cs ds : List Int) :
    nonzeroTerms cs = nonzeroTerms ds ↔ trimZeros cs = trimZeros ds := by
  constructor
  · intro h
    refine trimZeros_congr fun i => ?_
    have hterm (c : Int) : (c ≠ 0 ∧ cs.getD i 0 = c) ↔ (c ≠ 0 ∧ ds.getD i 0 = c) := by
      rw [← mem_nonzeroTerms_iff, ← mem_nonzeroTerms_iff, h]
    by_cases hc : cs.getD i 0 = 0
    · by_contra hne
      exact hne ((hterm _).2 ⟨fun hd => hne (hc.trans hd.symm), rfl⟩).2
    · exact ((hterm _).1 ⟨hc, rfl⟩).2.symm
  · intro h
    rw [← nonzeroTerms_trimZeros, h, nonzeroTerms_trimZeros]

lemma nonzeroTerms_eq_nil_iff (cs : List Int) : nonzeroTerms cs = [] ↔ ∀ c ∈ cs, c = 0 := by
  constructor
  · intro h c hc
    obtain ⟨i, hi, rfl⟩ := List.getElem_of_mem hc
    by_contra hne
    have hmem := (mem_nonzeroTerms_iff cs cs[i] i).2 ⟨hne, List.getD_eq_getElem cs 0 hi⟩
    rw [h] at hmem
    cases hmem
  · intro h
    rw [List.eq_nil_iff_forall_not_mem]
    rintro ⟨c, i⟩ hmem
    obtain ⟨hne, hc⟩ := (mem_nonzeroTerms_iff cs c i).1 hmem
    exact hne (hc.symm.trans (getD_eq_zero_of_forall h i))

/-! ## Polynomials -/

lemma render_eq (script : Script) (p : Poly) :
    p.render script =
      if nonzeroTerms p.coefficients = [] ∨ p.divider = 1 then terms script (nonzeroTerms p.coefficients)
      else script.fraction (terms script (nonzeroTerms p.coefficients)) (Text.integer p.divider) := by
  simp [render]

/-- Both polynomials are zero, or they have the same divider and the same coefficients up to zeros above
the degree. -/
def SameShown (p q : Poly) : Prop :=
  ((∀ c ∈ p.coefficients, c = 0) ∧ ∀ c ∈ q.coefficients, c = 0) ∨
    p.divider = q.divider ∧ p.trimmed.coefficients = q.trimmed.coefficients

lemma sameShown_iff (p q : Poly) :
    SameShown p q ↔
      (nonzeroTerms p.coefficients = [] ∧ nonzeroTerms q.coefficients = []) ∨
        p.divider = q.divider ∧ nonzeroTerms p.coefficients = nonzeroTerms q.coefficients := by
  rw [nonzeroTerms_eq_nil_iff, nonzeroTerms_eq_nil_iff, nonzeroTerms_eq_iff]
  rfl

/-- **In a legible script, equal texts are equal trimmed polynomials,** zero apart. -/
lemma Script.Legible.render_eq_iff (hscript : script.Legible) (p q : Poly) :
    p.render script = q.render script ↔ SameShown p q := by
  have hterms : terms script (nonzeroTerms p.coefficients) =
      terms script (nonzeroTerms q.coefficients) →
        nonzeroTerms p.coefficients = nonzeroTerms q.coefficients :=
    terms_inj hscript (fun _ => ne_zero_of_mem_nonzeroTerms) fun _ => ne_zero_of_mem_nonzeroTerms
  rw [sameShown_iff, render_eq, render_eq]
  constructor
  · intro h
    split at h <;> rename_i hp <;> split at h <;> rename_i hq
    · -- Two numerators: the dividers are not shown, being 1 unless the polynomial is zero.
      have heq := hterms h
      by_cases hzero : nonzeroTerms p.coefficients = []
      · exact .inl ⟨hzero, heq ▸ hzero⟩
      · have hp' := hp.resolve_left hzero
        have hq' := hq.resolve_left (heq ▸ hzero)
        exact .inr ⟨hp'.trans hq'.symm, heq⟩
    · exact absurd h.symm (fraction_ne_terms hscript _ _ _)
    · exact absurd h (fraction_ne_terms hscript _ _ _)
    · obtain ⟨hnumerators, hdividers⟩ := fraction_inj hscript h
      exact .inr ⟨hdividers, hterms hnumerators⟩
  · rintro (⟨hp, hq⟩ | ⟨hdivider, hterms⟩)
    · rw [hp, hq, if_pos (.inl rfl), if_pos (.inl rfl)]
    · rw [hdivider, hterms]

lemma SameShown.toPolynomial_eq {p q : Poly} (h : SameShown p q) :
    p.toPolynomial = q.toPolynomial := by
  rcases h with ⟨hp, hq⟩ | ⟨hdivider, hcoefficients⟩
  · rw [(toPolynomial_eq_zero_iff p).2 hp, (toPolynomial_eq_zero_iff q).2 hq]
  · have hlists : trimZeros p.coefficients = trimZeros q.coefficients := hcoefficients
    have htrimmed : p.trimmed = q.trimmed := by
      unfold trimmed
      congr
    rw [← toPolynomial_trimmed p, htrimmed, toPolynomial_trimmed]

/-- **Rendering loses nothing.**  In each of the three scripts, two polynomials have the same text
exactly if both are zero, or if they have the same divider and the same coefficients once they are
trimmed.  So the text determines the represented polynomial. -/
theorem render_determines_poly (p q : Poly) :
    (p.render ascii = q.render ascii ↔ SameShown p q) ∧
    (p.render unicode = q.render unicode ↔ SameShown p q) ∧
    (p.render latex = q.render latex ↔ SameShown p q) ∧
    (SameShown p q → p.toPolynomial = q.toPolynomial) :=
  ⟨legible_ascii.render_eq_iff p q, legible_unicode.render_eq_iff p q,
    legible_latex.render_eq_iff p q, SameShown.toPolynomial_eq⟩

end Poly
end ClosedForm
