/-!
# Padding and cutting text

A layout gives a text a least width and a greatest length, both counted in characters.

* `length_apply`: the result is as long as the text after the cut, or as the width if that is more.
-/

namespace Firmware.Text

/-- Where a text stands in a field that is wider than the text. -/
inductive Align where
  | left
  | right
  | center
deriving DecidableEq

/-- A field: the text is cut after `precision` characters, then filled up to `width`. -/
structure Layout where
  fill : Char
  align : Align
  width : Nat
  precision : Option Nat

namespace Layout

/-- The part of a text that the precision lets through. -/
def kept (layout : Layout) (text : List Char) : List Char :=
  match layout.precision with
  | some count => text.take count
  | none => text

/-- The number of fill characters before a text when `missing` of them are needed: a centred text
has the smaller half on its left. -/
def before (layout : Layout) (missing : Nat) : Nat :=
  match layout.align with
  | .left => 0
  | .right => missing
  | .center => missing / 2

/-- Lays a text out. -/
def apply (layout : Layout) (text : List Char) : List Char :=
  let body := layout.kept text
  let missing := layout.width - body.length
  List.replicate (layout.before missing) layout.fill ++ body ++
    List.replicate (missing - layout.before missing) layout.fill

theorem before_le (layout : Layout) (missing : Nat) : layout.before missing ≤ missing := by
  unfold before
  split <;> omega

/-- The length of a field is the width asked for, or that of the text where it is longer. -/
theorem length_apply (layout : Layout) (text : List Char) :
    (layout.apply text).length = max layout.width (layout.kept text).length := by
  have h := layout.before_le (layout.width - (layout.kept text).length)
  simp only [apply, List.length_append, List.length_replicate]
  omega

end Layout

end Firmware.Text
