import AgenticSoc.BlackboardFirewall

/-!
# Texts line by line

A file that is open as a text: every line ending is one newline, a line runs up to and
with its newline, and what follows the last newline is a line when there is something.
-/
namespace TextLines

open BlackboardFirewall

/-- Line endings as newlines. -/
def universal : List Char → List Char
  | [] => []
  | '\r' :: '\n' :: cs => '\n' :: universal cs
  | '\r' :: cs => '\n' :: universal cs
  | c :: cs => c :: universal cs

def lines : List Char → List (List Char)
  | [] => []
  | c :: cs =>
    if c = '\n' then [c] :: lines cs
    else
      match lines cs with
      | [] => [[c]]
      | line :: rest => (c :: line) :: rest

/-- The lines that a loop over the file gives. -/
def fileLines (text : List Char) : List String := (lines (universal text)).map String.ofList

theorem universal_cons {c : Char} (h : c ≠ '\r') (cs : List Char) : universal (c :: cs) = c :: universal cs := by
  rw [universal]
  · intro cs' hcr
    exact absurd hcr h
  · exact h

theorem universal_append {line : List Char} (h : ∀ c ∈ line, c ≠ '\r') (rest : List Char) :
    universal (line ++ rest) = line ++ universal rest := by
  induction line with
  | nil => rfl
  | cons c line ih =>
    rw [List.cons_append, universal_cons (h c List.mem_cons_self), ih fun d hd => h d (List.mem_cons_of_mem c hd),
      List.cons_append]

theorem lines_append {line : List Char} (h : ∀ c ∈ line, c ≠ '\n') (rest : List Char) :
    lines (line ++ '\n' :: rest) = (line ++ ['\n']) :: lines rest := by
  induction line with
  | nil => simp [lines]
  | cons c line ih =>
    rw [List.cons_append, lines, if_neg (h c List.mem_cons_self), ih fun d hd => h d (List.mem_cons_of_mem c hd)]
    rfl

/-- The lines of a text that was written line by line. -/
theorem fileLines_append {line : List Char} (h : ∀ c ∈ line, c ≠ '\r' ∧ c ≠ '\n') (rest : List Char) :
    fileLines (line ++ '\n' :: rest) = String.ofList (line ++ ['\n']) :: fileLines rest := by
  unfold fileLines
  rw [universal_append fun c hc => (h c hc).1, universal_cons (by decide), lines_append fun c hc => (h c hc).2]
  rfl

theorem fileLines_nil : fileLines [] = [] := rfl

/-- A line whose text has no blanks at its ends is stripped of its newline only. -/
theorem strip_line {first last : Char} {middle : List Char} (hfirst : BlackboardRecord.isSpace first = false)
    (hlast : BlackboardRecord.isSpace last = false) :
    strip (String.ofList (first :: middle ++ [last] ++ ['\n'])) = String.ofList (first :: middle ++ [last]) := by
  have hnewline : BlackboardRecord.isSpace '\n' = true := by decide
  simp [strip, hfirst, hlast, hnewline]

end TextLines
