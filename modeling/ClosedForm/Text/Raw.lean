import ClosedForm.Text.Quoted

/-!
# Texts with stray bytes

A text that was given as bytes need not be made of characters only: there can be bytes that are part
of none.  Such a text is still a text.  It is shown with U+FFFD in the place of every stray byte, but
it differs from every text with other bytes there, and between quotes it shows the bytes themselves.

Every `String` is a text without stray bytes.
-/

namespace ClosedForm

/-- A text that may have bytes that are part of no character. -/
structure RawText where
  /-- The text with U+FFFD in the place of every stray byte. -/
  shown : String
  /-- The stray bytes, each after the position of the character that is shown in its place. -/
  stray : List (Nat × UInt8)
  /-- In the place of a stray byte stands U+FFFD. -/
  shown_stray : ∀ x ∈ stray, shown.toList[x.1]? = some '\ufffd'
  /-- The stray bytes are listed in their order. -/
  ascending : stray.Pairwise fun x y => x.1 < y.1
deriving DecidableEq

namespace RawText

/-- A text without stray bytes. -/
def ofString (s : String) : RawText := ⟨s, [], nofun, .nil⟩

instance : Coe String RawText := ⟨ofString⟩

@[simp]
theorem shown_ofString (s : String) : (ofString s).shown = s := rfl

/-- The empty text. -/
def empty : RawText := ofString ""

/-- A text between double quotes, with every stray byte as two hexadecimal digits. -/
def quote (t : RawText) : String :=
  let chars := t.shown.toList.zipIdx.flatMap fun (c, i) =>
    match t.stray.lookup i with
    | some b => '\\' :: 'x' :: Text.hexDigits 2 b.toNat
    | none => Text.quoteChar c
  String.ofList ('"' :: (chars ++ ['"']))

/-- The characters that show a text, each with the number of its bytes.  A stray byte is one byte. -/
def sizedChars (t : RawText) : List (Char × Nat) :=
  t.shown.toList.zipIdx.map fun (c, i) =>
    (c, if (t.stray.lookup i).isSome then 1 else c.utf8Size)

/-- The number of bytes of a text. -/
def byteSize (t : RawText) : Nat := t.sizedChars.foldl (fun n c => n + c.2) 0

/-! ## From bytes -/

/-- The character that bytes begin with, and the number of its bytes. -/
def firstChar? (bytes : List UInt8) : Option (Char × Nat) :=
  let sizes : List Nat := [1, 2, 3, 4]
  sizes.findSome? fun n =>
    let front := ByteArray.mk (bytes.take n).toArray
    if front.size == n then do
      let c ← (← String.fromUTF8? front).toList.head?
      some (c, n)
    else none

/-- The characters of bytes, each with the byte it stands for if that byte is part of none. -/
def decode : (fuel : Nat) → List UInt8 → List (Char × Option UInt8)
  | 0, _ => []
  | _ + 1, [] => []
  | fuel + 1, b :: bs =>
    match firstChar? (b :: bs) with
    | some (c, n) => (c, none) :: decode fuel (bs.drop (n - 1))
    | none => ('\ufffd', some b) :: decode fuel bs

/-- What is shown for a stray byte. -/
theorem fst_of_mem_decode {fuel : Nat} {bytes : List UInt8} {c : Char} {b : UInt8}
    (h : (c, some b) ∈ decode fuel bytes) : c = '\ufffd' := by
  fun_induction decode fuel bytes with
  | case1 | case2 => cases h
  | case3 fuel b' bs c' n _ ih =>
    cases h with
    | tail _ h => exact ih h
  | case4 fuel b' bs _ ih =>
    cases h with
    | head => rfl
    | tail _ h => exact ih h

/-- Positions go up. -/
theorem pairwise_zipIdx {α : Type} (l : List α) : l.zipIdx.Pairwise fun x y => x.2 < y.2 := by
  rw [← List.pairwise_map, List.zipIdx_map_snd]
  exact List.pairwise_lt_range'

/-- The stray bytes among characters, each after its position. -/
def strayBytes (chars : List (Char × Option UInt8)) : List (Nat × UInt8) :=
  chars.zipIdx.filterMap fun ((_, b?), i) => b?.map (i, ·)

/-- The text that bytes are. -/
def ofBytes (bytes : List UInt8) : RawText where
  shown := String.ofList ((decode bytes.length bytes).map (·.1))
  stray := strayBytes (decode bytes.length bytes)
  shown_stray := by
    intro x hx
    obtain ⟨⟨⟨c, b?⟩, i⟩, hmem, hb⟩ := List.mem_filterMap.1 hx
    obtain ⟨b, rfl, rfl⟩ := Option.map_eq_some_iff.1 hb
    have hget := List.mem_zipIdx_iff_getElem?.1 hmem
    rw [String.toList_ofList, List.getElem?_map, hget, Option.map_some,
      fst_of_mem_decode (List.mem_of_getElem? hget)]
  ascending := by
    refine List.pairwise_filterMap.2 ((pairwise_zipIdx _).imp fun hlt x hx y hy => ?_)
    obtain ⟨b, -, rfl⟩ := Option.map_eq_some_iff.1 hx
    obtain ⟨b', -, rfl⟩ := Option.map_eq_some_iff.1 hy
    exact hlt

end RawText
end ClosedForm
