import GitTutor.Text.Blank

/-!
# Lines

A text is cut after every line end. A line keeps its end, which is a line feed,
and only the last line may lack it. Without its end a line also loses one
carriage return that stands right before the line feed.
-/

namespace GitTutor.Text

/-- The parts of a list that end with an item that satisfies `stop`; the last part may end
with the list instead. -/
def segments {α : Type} (stop : α → Bool) : List α → List (List α)
  | [] => []
  | a :: as => if stop a then [a] :: segments stop as else attach a (segments stop as)

/-- A line without its end. -/
def withoutLineEnd (line : List Char) : List Char :=
  match line.reverse with
  | '\n' :: '\r' :: rest => rest.reverse
  | '\n' :: rest => rest.reverse
  | _ => line

/-- The lines of a text without their ends. -/
def textLines (cs : List Char) : List (List Char) :=
  (segments (· == '\n') cs).map withoutLineEnd

end GitTutor.Text
