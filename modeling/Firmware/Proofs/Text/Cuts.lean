import Firmware.Proofs.Text.Fronts

/-!
# The cut of a text

A cut looks for a boundary by stepping back from the limit, one byte at a time. The front of a text is
always a boundary, so the search does not leave the text; and no character has more than four bytes, so
it takes three steps at most.

* `stepsBack_iff`: the search comes to an end, and where.
* `steps_le_three`: how long it takes in the bytes of a text.
* `longest_cut`: what is kept is the longest well-formed front that fits.
* `cut_cut`: a cut of what a longer cut kept is a cut of the text.
-/

namespace Firmware.Text.Utf8

variable {text kept : List Char} {bytes : List UInt8} {max less offset steps stop : Nat}

/-! ## The search for a boundary -/

/-- A search that is at some offset takes so many steps back and stops there. There is no step back
from offset 0. -/
inductive StepsBack (bytes : List UInt8) : (offset steps stop : Nat) → Prop
  | stop {offset : Nat} (h : isBoundary bytes offset) : StepsBack bytes offset 0 offset
  | back {offset steps stop : Nat} (h : ¬ isBoundary bytes (offset + 1))
    (hrest : StepsBack bytes offset steps stop) : StepsBack bytes (offset + 1) (steps + 1) stop

/-- **The search comes to an end**, at the last boundary before the offset or at it. -/
theorem stepsBack_iff :
    StepsBack bytes offset steps stop ↔ stop = alignDown bytes offset ∧ offset = stop + steps := by
  constructor
  · intro h
    induction h with
    | @stop offset h =>
      have hle := alignDown_le bytes offset
      have hge := le_alignDown h (Nat.le_refl offset)
      exact ⟨by omega, rfl⟩
    | back h hrest ih =>
      obtain ⟨hstop, hsteps⟩ := ih
      rw [alignDown, if_neg h]
      exact ⟨hstop, by omega⟩
  · rintro ⟨rfl, hsteps⟩
    induction offset generalizing steps with
    | zero =>
      obtain rfl : steps = 0 := by omega
      exact .stop (isBoundary_zero bytes)
    | succ offset ih =>
      rw [alignDown] at hsteps ⊢
      by_cases h : isBoundary bytes (offset + 1)
      · rw [if_pos h] at hsteps ⊢
        obtain rfl : steps = 0 := by omega
        exact .stop h
      · rw [if_neg h] at hsteps ⊢
        have hle := alignDown_le bytes offset
        obtain ⟨rest, rfl⟩ : ∃ rest, steps = rest + 1 := ⟨steps - 1, by omega⟩
        exact .back h (ih (by omega))

/-- **A boundary is never far**: from nowhere in a text does the search take more than three steps. -/
theorem steps_le_three (h : StepsBack (encode text) offset steps stop)
    (hoffset : offset ≤ (encode text).length) : steps ≤ 3 := by
  obtain ⟨hstop, hsteps⟩ := stepsBack_iff.1 h
  have hboundary := isBoundary_alignDown (encode text) offset
  rw [← hstop] at hboundary
  obtain ⟨front, ⟨rest, rfl⟩, hsize⟩ := isBoundary_encode_iff.1 hboundary
  cases rest with
  | nil =>
    rw [List.append_nil, length_encode] at hoffset
    omega
  | cons c rest =>
    -- the end of the next character is a boundary that was not passed over
    have hnext : isBoundary (encode (front ++ c :: rest)) (size (front ++ [c])) :=
      isBoundary_of_front ⟨rest, List.append_cons front c rest ▸ rfl⟩
    have hend : size (front ++ [c]) = stop + c.utf8Size := by
      rw [Clipped.size_append, hsize]
      rfl
    have hpos := c.utf8Size_pos
    have hfour := c.utf8Size_le_four
    have hlt : offset < stop + c.utf8Size := by
      by_contra hge
      have hpassed : size (front ++ [c]) ≤ alignDown (encode (front ++ c :: rest)) offset :=
        le_alignDown hnext (by omega)
      omega
    omega

/-! ## What is kept -/

/-- **A cut keeps the longest well-formed front that fits.** -/
theorem longest_cut (max : Nat) (text : List Char) :
    Longest (fun front => front.length ≤ max ∧ WellFormed front) (encode text) (cut max text) := by
  rw [cut_eq_encode_fitting]
  refine longest_encode ?_ (Clipped.longest_fitting max text)
  intro bytes _
  constructor
  · rintro ⟨hfits, hformed⟩
    obtain ⟨front, rfl⟩ := (wellFormed_iff bytes).1 hformed
    rw [length_encode] at hfits
    exact ⟨front, rfl, hfits⟩
  · rintro ⟨front, rfl, hfits⟩
    rw [length_encode]
    exact ⟨hfits, wellFormed_encode front⟩

theorem length_cut (max : Nat) (text : List Char) :
    (cut max text).length = alignDown (encode text) (min (encode text).length max) := by
  have hle := alignDown_le (encode text) (min (encode text).length max)
  unfold cut
  dsimp only
  rw [List.length_take]
  omega

/-- The search of a cut is over after three steps at most, at the end of what is kept. -/
theorem exists_stepsBack (max : Nat) (text : List Char) :
    ∃ steps ≤ 3, StepsBack (encode text) (min (encode text).length max) steps
      (cut max text).length := by
  have hle := alignDown_le (encode text) (min (encode text).length max)
  have hsearch : StepsBack (encode text) (min (encode text).length max)
      (min (encode text).length max - (cut max text).length) (cut max text).length := by
    rw [stepsBack_iff, length_cut]
    exact ⟨rfl, by omega⟩
  exact ⟨_, steps_le_three hsearch (Nat.min_le_left _ _), hsearch⟩

theorem cut_eq_encode_iff : cut max text = encode text ↔ (encode text).length ≤ max := by
  have hlongest := longest_cut max text
  constructor
  · intro hall
    have hfits := hlongest.holds.1
    rwa [hall] at hfits
  · intro hfits
    have hall := hlongest.longest (encode text) (List.prefix_refl _) ⟨hfits, wellFormed_encode text⟩
    exact hlongest.front.eq_of_length_le hall.length_le

/-- Less than a character is given away. -/
theorem lt_length_cut_add_four (h : max < (encode text).length) : max < (cut max text).length + 4 := by
  obtain ⟨steps, hthree, hsearch⟩ := exists_stepsBack max text
  have hsteps := (stepsBack_iff.1 hsearch).2
  omega

theorem cut_front_cut (h : less ≤ max) (text : List Char) : cut less text <+: cut max text := by
  have hless := longest_cut less text
  exact (longest_cut max text).longest _ hless.front ⟨Nat.le_trans hless.holds.1 h, hless.holds.2⟩

/-- A cut of what a longer cut kept is a cut of the text. -/
theorem cut_cut (h : less ≤ max) (hkept : encode kept = cut max text) :
    cut less kept = cut less text := by
  have hfront := cut_front_cut h text
  have hwhole := (longest_cut max text).front
  rw [← hkept] at hfront hwhole
  exact (longest_cut less kept).unique ((longest_cut less text).of_front hwhole hfront)

/-- **A cut keeps as much of a text as fits.** The search for its end takes at most three steps, none of
them back from the first byte. What is kept is the longest front of the bytes that fits and is well-formed,
which for a front is to end at a boundary: all of the text where that fits, and otherwise all of what
fits but three bytes at most. With more room no less is kept, and a cut of what is kept is the cut of the
text with as much room. -/
theorem cut_longest (max : Nat) (text : List Char) :
    (∃ steps ≤ 3, StepsBack (encode text) (min (encode text).length max) steps
      (cut max text).length) ∧
    Longest (fun front => front.length ≤ max ∧ WellFormed front) (encode text) (cut max text) ∧
    (∀ front, front <+: encode text →
      (WellFormed front ↔ isBoundary (encode text) front.length)) ∧
    (cut max text = encode text ↔ (encode text).length ≤ max) ∧
    (max < (encode text).length → max < (cut max text).length + 4) ∧
    (∀ more, max ≤ more → cut max text <+: cut more text) ∧
    ∃ kept, encode kept = cut max text ∧ ∀ less ≤ max, cut less kept = cut less text := by
  refine ⟨exists_stepsBack max text, longest_cut max text, fun front hfront => ?_, cut_eq_encode_iff,
    lt_length_cut_add_four, fun more hmore => cut_front_cut hmore text, ?_⟩
  · rw [wellFormed_iff, isBoundary_length_iff hfront]
  · obtain ⟨kept, hkept⟩ := (wellFormed_iff _).1 (longest_cut max text).holds.2
    exact ⟨kept, hkept, fun less hless => cut_cut hless hkept⟩

/-- A character of four bytes of which only the last does not fit. -/
theorem cut_longest_crab :
    let text := ['a', '🦀', 'b']
    (∃ steps ≤ 3, StepsBack (encode text) 4 steps 1) ∧ ¬ StepsBack (encode text) 4 2 1 ∧
      cut 4 text = [0x61] ∧ 4 < (cut 4 text).length + 4 ∧ cut 4 text <+: cut 5 text ∧
      ∃ kept, encode kept = [0x61] ∧ cut 0 kept = cut 0 text := by
  intro text
  have hcut : cut 4 text = [0x61] := by decide +kernel
  obtain ⟨hsteps, -, -, -, hnear, hmore, kept, hkept, hless⟩ := cut_longest 4 text
  have hfour : min (encode text).length 4 = 4 := by decide +kernel
  rw [hfour, hcut] at hsteps
  refine ⟨hsteps, fun h => ?_, hcut, hnear (by decide +kernel), hmore 5 (by decide), kept, ?_, ?_⟩
  · have htwo := (stepsBack_iff.1 h).2
    omega
  · rw [hkept, hcut]
  · exact hless 0 (by decide)

end Firmware.Text.Utf8
