import Firmware.Proofs.Text.Fronts

/-!
# Text in limited space

Pieces that are written into limited space come to the longest front of the whole text that fits, and
then to what of later pieces fits the rest. The rest is too small for the character that was dropped
first, but a smaller one may still go in: the writer forgets that it has dropped something.

* `fitting_append_of_le`, `fitting_append_of_lt`: what fits of two pieces.
* `write_of_cut`: what is written when one of the pieces is cut.
* `calls_begin_with_longest`: what the calls of the writer come to, and when that is a front of the
  whole text.
* `kept_after_dropped`: it is not always one.
-/

namespace Firmware.Text.Clipped

open Utf8

variable {room : Nat} {text rest : List Char} {pieces before after : List (List Char)}
  {piece : List Char}

/-! ## What fits -/

/-- A text that fits is kept, and then what fits the room it leaves. -/
theorem fitting_append_of_le (h : size text ≤ room) :
    fitting room (text ++ rest) = text ++ fitting (room - size text) rest := by
  induction text generalizing room with
  | nil => rfl
  | cons c text ih =>
    rw [size] at h
    rw [List.cons_append, fitting, if_pos (by omega), ih (by omega), size, Nat.sub_add_eq,
      List.cons_append]

/-- Of a text that does not fit all characters are dropped from some character on, and what follows
the text as well. -/
theorem fitting_append_of_lt (h : room < size text) :
    fitting room (text ++ rest) = fitting room text := by
  induction text generalizing room with
  | nil => exact absurd h (Nat.not_lt_zero room)
  | cons c text ih =>
    rw [size] at h
    rw [List.cons_append, fitting, fitting]
    split
    · rw [ih (by omega)]
    · rfl

/-- Less room is left than a character can take. -/
theorem lt_size_fitting_add (h : room < size text) : room < size (fitting room text) + 4 := by
  induction text generalizing room with
  | nil => exact absurd h (Nat.not_lt_zero room)
  | cons c text ih =>
    have hmax := c.utf8Size_le_four
    rw [size] at h
    rw [fitting]
    split
    · have hrest : room - c.utf8Size < size text := by omega
      have hroom := ih hrest
      rw [size]
      omega
    · rw [size]
      omega

theorem fitting_eq_nil_iff :
    fitting room text = [] ↔ ∀ c cs, text = c :: cs → room < c.utf8Size := by
  cases text with
  | nil => simp [fitting]
  | cons c cs =>
    rw [fitting]
    constructor
    · intro hnil d ds heq
      obtain ⟨rfl, -⟩ := List.cons.inj heq
      split at hnil
      · cases hnil
      · omega
    · intro hlarge
      have hc := hlarge c cs rfl
      rw [if_neg (by omega)]

/-! ## What is written -/

/-- Nothing is written if no piece begins with a character that fits. -/
theorem write_eq_nil_iff :
    write room pieces = [] ↔ ∀ c cs, c :: cs ∈ pieces → room < c.utf8Size := by
  induction pieces with
  | nil => simp [write]
  | cons piece pieces ih =>
    rw [write, List.append_eq_nil_iff]
    constructor
    · rintro ⟨hpiece, hpieces⟩ c cs hmem
      rw [hpiece, size, Nat.sub_zero, ih] at hpieces
      rcases List.mem_cons.1 hmem with heq | hrest
      · exact fitting_eq_nil_iff.1 hpiece c cs heq.symm
      · exact hpieces c cs hrest
    · intro hlarge
      have hpiece : fitting room piece = [] :=
        fitting_eq_nil_iff.2 fun c cs heq => hlarge c cs (heq ▸ List.mem_cons_self)
      refine ⟨hpiece, ?_⟩
      rw [hpiece, size, Nat.sub_zero, ih]
      exact fun c cs hmem => hlarge c cs (List.mem_cons_of_mem _ hmem)

/-- Pieces that do not all fit have one that is cut first. -/
theorem exists_cut (h : room < size pieces.flatten) :
    ∃ before piece after, pieces = before ++ piece :: after ∧ size before.flatten ≤ room ∧
      room < size (before.flatten ++ piece) := by
  induction pieces generalizing room with
  | nil => exact absurd h (Nat.not_lt_zero room)
  | cons piece pieces ih =>
    rw [List.flatten_cons, size_append] at h
    rcases Nat.lt_or_ge room (size piece) with hlt | hle
    · exact ⟨[], piece, pieces, rfl, Nat.zero_le room, hlt⟩
    · have hrest : room - size piece < size pieces.flatten := by omega
      obtain ⟨before, cut, after, rfl, hbefore, hcut⟩ := ih hrest
      rw [size_append] at hcut
      refine ⟨piece :: before, cut, after, rfl, ?_, ?_⟩
      · rw [List.flatten_cons, size_append]
        omega
      · rw [List.flatten_cons, List.append_assoc, size_append, size_append]
        omega

/-- **What is written when a piece is cut**: what fits of the whole text, and then what fits the rest
of the pieces after the one that is cut. -/
theorem write_of_cut (hpieces : pieces = before ++ piece :: after)
    (hbefore : size before.flatten ≤ room) (hcut : room < size (before.flatten ++ piece)) :
    write room pieces =
      fitting room pieces.flatten ++ write (room - size (fitting room pieces.flatten)) after := by
  subst hpieces
  induction before generalizing room with
  | nil =>
    have hpiece : room < size piece := hcut
    rw [List.nil_append, List.flatten_cons, fitting_append_of_lt hpiece, write]
  | cons first before ih =>
    rw [List.flatten_cons, size_append] at hbefore
    rw [List.flatten_cons, List.append_assoc, size_append] at hcut
    have hfirst : size first ≤ room := by omega
    rw [List.cons_append, List.flatten_cons, fitting_append_of_le hfirst, write,
      fitting_eq_self room first hfirst, ih (by omega) (by omega), size_append, Nat.sub_add_eq,
      List.append_assoc]

/-- **What the calls of the writer come to.** Each of them goes well. The text begins with the longest
front of all that was to be written that fits, and at most three bytes follow it. Nothing follows it
exactly if after the piece that is cut no piece begins with a character for which there is room. -/
theorem calls_begin_with_longest (capacity : Nat) (pieces : List (List Char)) :
    pieces.foldlM (put capacity) [] = .ok (write capacity pieces) ∧
    size (write capacity pieces) ≤ capacity ∧
    ∃ kept, Longest (fun front => size front ≤ capacity) pieces.flatten kept ∧
      kept <+: write capacity pieces ∧
      size (write capacity pieces) ≤ size kept + 3 ∧
      (write capacity pieces = kept ↔
        ∀ before piece after, pieces = before ++ piece :: after → size before.flatten ≤ capacity →
          capacity < size (before.flatten ++ piece) →
          ∀ c cs, c :: cs ∈ after → capacity < size kept + c.utf8Size) := by
  have hkept := longest_fitting capacity pieces.flatten
  have hwrite := size_write_le capacity pieces
  have hfits := hkept.holds
  refine ⟨foldlM_put capacity [] pieces, hwrite, _, hkept, ?_⟩
  rcases Nat.lt_or_ge capacity (size pieces.flatten) with hlt | hle
  · have hroom := lt_size_fitting_add hlt
    obtain ⟨before, piece, after, hpieces, hbefore, hcut⟩ := exists_cut hlt
    refine ⟨?_, by omega, ?_, ?_⟩
    · rw [write_of_cut hpieces hbefore hcut]
      exact List.prefix_append _ _
    · intro hsame before' piece' after' hpieces' hbefore' hcut' c cs hmem
      rw [write_of_cut hpieces' hbefore' hcut', List.append_right_eq_self, write_eq_nil_iff] at hsame
      have hlarge := hsame c cs hmem
      omega
    · intro hlarge
      rw [write_of_cut hpieces hbefore hcut, List.append_right_eq_self, write_eq_nil_iff]
      intro c cs hmem
      have hc := hlarge before piece after hpieces hbefore hcut c cs hmem
      omega
  -- no piece is cut
  · have hall : write capacity pieces = fitting capacity pieces.flatten := by
      rw [write_eq_flatten capacity pieces hle, fitting_eq_self capacity _ hle]
    refine ⟨hall ▸ List.prefix_refl _, by rw [hall]; omega, iff_of_true hall ?_⟩
    intro before piece after hpieces hbefore hcut
    rw [hpieces, List.flatten_append, List.flatten_cons, ← List.append_assoc, size_append] at hle
    omega

theorem calls_begin_with_longest_stopped :
    let pieces := ["ab".toList, "cé".toList, [], "éf".toList]
    size ["ab".toList].flatten ≤ 4 ∧ 4 < size (["ab".toList].flatten ++ "cé".toList) ∧
      ∃ kept, Longest (fun front => size front ≤ 4) pieces.flatten kept ∧
        write 4 pieces = kept ∧ 4 < size kept + 'é'.utf8Size := by
  intro pieces
  have hbefore : size ["ab".toList].flatten ≤ 4 := by decide
  have hcut : 4 < size (["ab".toList].flatten ++ "cé".toList) := by decide
  obtain ⟨-, -, kept, hkept, -, -, hsame⟩ := calls_begin_with_longest 4 pieces
  obtain rfl : fitting 4 pieces.flatten = kept := (longest_fitting 4 pieces.flatten).unique hkept
  have hwrite : write 4 pieces = fitting 4 pieces.flatten := by decide
  have hlarge := hsame.1 hwrite ["ab".toList] "cé".toList [[], "éf".toList] rfl hbefore hcut
  exact ⟨hbefore, hcut, _, hkept, hwrite, hlarge 'é' "f".toList (by decide)⟩

/-- **A character may follow one that was dropped.** Space for four bytes is left with one byte that
the second call fills, so that the text is no front of what was to be written. -/
theorem kept_after_dropped :
    let pieces := ["abcé".toList, "d".toList]
    pieces.foldlM (put 4) [] = .ok "abcd".toList ∧
      ¬ Longest (fun front => size front ≤ 4) pieces.flatten "abcd".toList := by
  refine ⟨by decide, fun h => ?_⟩
  exact absurd h.front (by decide)

end Firmware.Text.Clipped
