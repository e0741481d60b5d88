/-!
# Cutting text into parts

Texts made of parts between separators, and comparison of ASCII letters without regard to case.
-/

namespace CilLoader.Text

/-- Cuts a text at every separator. The result has one more part than the text has separators. -/
def cut (separator : Char) : List Char → List (List Char)
  | [] => [[]]
  | character :: rest =>
    if character = separator then [] :: cut separator rest
    else
      match cut separator rest with
      | [] => [[character]]
      | part :: parts => (character :: part) :: parts

/-- Cuts a text at its first separator, if it has one. -/
def cutOnce? (separator : Char) : List Char → Option (List Char × List Char)
  | [] => none
  | character :: rest =>
    if character = separator then some ([], rest)
    else (cutOnce? separator rest).map fun (before, after) => (character :: before, after)

/-- Whether two texts agree when the case of ASCII letters does not count. -/
def sameLetters (left right : List Char) : Bool :=
  left.map Char.toLower == right.map Char.toLower

theorem cut_ne_nil (separator : Char) (text : List Char) : cut separator text ≠ [] := by
  cases text with
  | nil => simp [cut]
  | cons character rest =>
      simp only [cut]
      split
      · simp
      · split <;> simp

example : cut ',' "a,,b".toList = ["a".toList, [], "b".toList] := by decide
example : cutOnce? '=' "k=v=w".toList = some ("k".toList, "v=w".toList) := by decide
example : sameLetters "Neutral".toList "nEUTRAL".toList = true := by decide

end CilLoader.Text
