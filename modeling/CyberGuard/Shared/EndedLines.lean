import Mathlib.Data.List.Basic

/-!
# Lines that are ended, and what follows the last

A stream is cut at a separator: the lines before one, and the rest that waits for its own.
A stream that comes in parts has the lines of each part, with the rest of what came before
put in front of it.
-/

namespace EndedLines
set_option autoImplicit false
open List

variable {α : Type} [DecidableEq α] {sep : α} {line held front back stream : List α}

def ended (sep : α) (stream : List α) : List (List α) := (stream.splitOn sep).dropLast

def rest (sep : α) (stream : List α) : List α := (stream.splitOn sep).getLastD []

theorem splitOn_line (h : sep ∉ line) (stream : List α) :
    (line ++ sep :: stream).splitOn sep = line :: stream.splitOn sep := by
  have hsplit := splitOnP_append_cons (p := (· == sep)) line stream (beq_self_eq_true sep)
  have hline := splitOn_eq_singleton h
  unfold List.splitOn at hline ⊢
  rw [hsplit, hline]
  rfl

theorem ended_of_notMem (h : sep ∉ held) : ended sep held = [] := by
  rw [ended, splitOn_eq_singleton h]
  rfl

theorem rest_of_notMem (h : sep ∉ held) : rest sep held = held := by
  rw [rest, splitOn_eq_singleton h]
  rfl

theorem splitOn_ne_nil (sep : α) (stream : List α) : stream.splitOn sep ≠ [] := by
  unfold List.splitOn
  exact splitOnP_ne_nil _ _

theorem ended_line (h : sep ∉ line) (stream : List α) :
    ended sep (line ++ sep :: stream) = line :: ended sep stream := by
  rw [ended, splitOn_line h, dropLast_cons_of_ne_nil (splitOn_ne_nil sep stream)]
  rfl

theorem rest_line (h : sep ∉ line) (stream : List α) :
    rest sep (line ++ sep :: stream) = rest sep stream := by
  have hlast := List.getLast?_eq_some_getLast (splitOn_ne_nil sep stream)
  rw [rest, rest, splitOn_line h, getLastD_cons, getLastD_eq_getLast?,
    getLastD_eq_getLast?, hlast]
  rfl

theorem lines_induction (sep : α) {P : List α → Prop} (hheld : ∀ held, sep ∉ held → P held)
    (hline : ∀ line stream, sep ∉ line → P stream → P (line ++ sep :: stream))
    (stream : List α) : P stream := by
  induction hlength : stream.length using Nat.strongRecOn generalizing stream with
  | ind n ih =>
    by_cases hmem : sep ∈ stream
    · obtain ⟨line, more, rfl, hnot⟩ := eq_append_cons_of_mem hmem
      apply hline line more hnot
      apply ih more.length ?_ more rfl
      rw [← hlength, length_append, length_cons]
      omega
    · exact hheld stream hmem

theorem notMem_rest (stream : List α) : sep ∉ rest sep stream := by
  induction stream using lines_induction sep with
  | hheld held h =>
    rw [rest_of_notMem h]
    exact h
  | hline line stream h ih =>
    rw [rest_line h]
    exact ih

theorem ended_append (front back : List α) :
    ended sep (front ++ back) = ended sep front ++ ended sep (rest sep front ++ back) := by
  induction front using lines_induction sep with
  | hheld held h =>
    rw [ended_of_notMem h, rest_of_notMem h]
    rfl
  | hline line stream h ih =>
    rw [append_assoc, cons_append, ended_line h, ended_line h, rest_line h, ih]
    rfl

theorem rest_append (front back : List α) :
    rest sep (front ++ back) = rest sep (rest sep front ++ back) := by
  induction front using lines_induction sep with
  | hheld held h => rw [rest_of_notMem h]
  | hline line stream h ih =>
    rw [append_assoc, cons_append, rest_line h, rest_line h, ih]

end EndedLines
