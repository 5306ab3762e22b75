import CyberGuard.Service.Rotation
import CyberGuard.Shared.EndedLines

/-!
# The lines the log is given

The log is a `Write`: its input comes in parts that need not be lines. The line that is
coming is kept up to the bound of a record and only counted beyond it. Whatever the parts,
the log does what it does for the lines of the whole stream, one after the other.
-/

namespace CyberGuard.Service.Rotation.Lines
set_option autoImplicit false
open CrashLogic EndedLines List

def newline : UInt8 := 10

structure Incoming where
  pending : Bytes
  /-- The line outgrew the bound: its bytes are counted and dropped. -/
  discarding : Bool
  lineLen : Nat
  deriving DecidableEq, Repr

def Incoming.empty : Incoming := ⟨[], false, 0⟩

structure Receiver where
  log : RotatingLog
  incoming : Incoming
  deriving DecidableEq, Repr

def Incoming.take (line : Incoming) (bytes : Bytes) : Incoming :=
  let lineLen := line.lineLen + bytes.length
  if line.discarding then { line with lineLen := lineLen }
  else if maxRecordBytes < line.pending.length + bytes.length + 1 then ⟨[], true, lineLen⟩
  else { line with pending := line.pending ++ bytes, lineLen := lineLen }

def Receiver.take (receiver : Receiver) (bytes : Bytes) : Receiver :=
  { receiver with incoming := receiver.incoming.take bytes }

section Writing
-- `to_string` of `serde_json`
variable (render : Json Nat → Bytes)

/-- The diagnostic for a record of this length, with the time it is made at. -/
def diagnostic (len : Nat) : LogProg Bytes :=
  .act .timestamp fun timestamp => .ret (render (oversizedRecord timestamp len))

def endLine (receiver : Receiver) : LogProg Receiver := do
  let record ←
    if receiver.incoming.discarding then diagnostic render receiver.incoming.lineLen
    else pure receiver.incoming.pending
  let log ← writeRecord render receiver.log record
  return ⟨log, .empty⟩

/-- The loop of `write` over what is left of the part. -/
def writeLines (receiver : Receiver) (part : Bytes) : LogProg Receiver :=
  match hend : part.findIdx? (· == newline) with
  | none => .ret (receiver.take part)
  | some stop => do
    let receiver ← endLine render (receiver.take (part.take stop))
    writeLines receiver (part.drop (stop + 1))
termination_by part.length
decreasing_by
  have hlt := (List.findIdx?_eq_some_iff_findIdx_eq.mp hend).1
  rw [length_drop]
  omega

def write (receiver : Receiver) (buf : Bytes) : LogProg (Receiver × Nat) := do
  let receiver ← writeLines render receiver buf
  return (receiver, buf.length)

def writeAll (receiver : Receiver) : List Bytes → LogProg (Receiver × List Nat)
  | [] => .ret (receiver, [])
  | buf :: parts => do
    let written ← write render receiver buf
    let last ← writeAll written.1 parts
    return (last.1, written.2 :: last.2)

/-- What `write_record` is handed for a line. -/
def lineRecord (line : Bytes) : LogProg Bytes :=
  if line.length + 1 ≤ maxRecordBytes then .ret line else diagnostic render line.length

def handLines (log : RotatingLog) : List Bytes → LogProg RotatingLog
  | [] => .ret log
  | line :: more => do
    let record ← lineRecord render line
    let log ← writeRecord render log record
    handLines log more

/-- A line that came so far: kept, or counted where it is too long. -/
def holding (held : Bytes) : Incoming :=
  if held.length + 1 ≤ maxRecordBytes then ⟨held, false, held.length⟩
  else ⟨[], true, held.length⟩

variable {render}

theorem holding_of_le {held : Bytes} (h : held.length + 1 ≤ maxRecordBytes) :
    holding held = ⟨held, false, held.length⟩ := if_pos h

theorem holding_of_lt {held : Bytes} (h : maxRecordBytes < held.length + 1) :
    holding held = ⟨[], true, held.length⟩ := if_neg (Nat.not_le_of_lt h)

theorem take_holding (held bytes : Bytes) : (holding held).take bytes = holding (held ++ bytes) := by
  have hlength : (held ++ bytes).length = held.length + bytes.length := length_append
  by_cases hkept : held.length + 1 ≤ maxRecordBytes
  · by_cases hfits : (held ++ bytes).length + 1 ≤ maxRecordBytes
    · rw [holding_of_le hkept, holding_of_le hfits, Incoming.take, if_neg Bool.false_ne_true,
        if_neg (by dsimp only; omega), hlength]
    · rw [holding_of_le hkept, holding_of_lt (by omega), Incoming.take,
        if_neg Bool.false_ne_true, if_pos (by dsimp only; omega), hlength]
  · rw [holding_of_lt (by omega), holding_of_lt (by omega), Incoming.take, if_pos rfl, hlength]

theorem endLine_holding (log : RotatingLog) (line : Bytes) :
    endLine render ⟨log, holding line⟩ = do
      let record ← lineRecord render line
      let log ← writeRecord render log record
      return ⟨log, holding []⟩ := by
  by_cases hkept : line.length + 1 ≤ maxRecordBytes
  · rw [endLine, holding, if_pos hkept, lineRecord, if_pos hkept]
    rfl
  · rw [endLine, holding, if_neg hkept, lineRecord, if_neg hkept]
    rfl

theorem writeLines_held (receiver : Receiver) {part : Bytes} (h : newline ∉ part) :
    writeLines render receiver part = .ret (receiver.take part) := by
  have hnone : part.findIdx? (· == newline) = none := by
    apply List.findIdx?_eq_none_iff.mpr
    intro byte hbyte
    exact beq_false_of_ne fun heq => h (heq ▸ hbyte)
  rw [writeLines]
  split
  · rfl
  · rename_i stop hsome
    rw [hnone] at hsome
    cases hsome

theorem writeLines_line (receiver : Receiver) {line : Bytes} (part : Bytes) (h : newline ∉ line) :
    writeLines render receiver (line ++ newline :: part) =
      endLine render (receiver.take line) >>= fun receiver => writeLines render receiver part := by
  have hnone : line.findIdx? (· == newline) = none := by
    apply List.findIdx?_eq_none_iff.mpr
    intro byte hbyte
    exact beq_false_of_ne fun heq => h (heq ▸ hbyte)
  have hsome : (line ++ newline :: part).findIdx? (· == newline) = some line.length := by
    rw [List.findIdx?_append, hnone, List.findIdx?_cons]
    simp
  rw [writeLines]
  split
  · rename_i hnone
    rw [hnone] at hsome
    cases hsome
  · rename_i stop hstop
    obtain rfl : line.length = stop := Option.some.inj (hsome.symm.trans hstop)
    have hdrop : (line ++ newline :: part).drop (line.length + 1) = part := by
      rw [drop_append]
      simp
    rw [take_left, hdrop]

theorem writeLines_holding (log : RotatingLog) {held : Bytes} (hheld : newline ∉ held)
    (part : Bytes) :
    writeLines render ⟨log, holding held⟩ part = do
      let log ← handLines render log (ended newline (held ++ part))
      return ⟨log, holding (rest newline (held ++ part))⟩ := by
  induction part using lines_induction newline generalizing log held with
  | hheld part hpart =>
    have hnot : newline ∉ held ++ part := by
      rw [mem_append, not_or]
      exact ⟨hheld, hpart⟩
    rw [writeLines_held _ hpart, ended_of_notMem hnot, rest_of_notMem hnot, Receiver.take,
      take_holding]
    rfl
  | hline line part hline ih =>
    have hnot : newline ∉ held ++ line := by
      rw [mem_append, not_or]
      exact ⟨hheld, hline⟩
    rw [writeLines_line _ part hline, Receiver.take, take_holding, endLine_holding,
      ← append_assoc, ended_line hnot, rest_line hnot, handLines, Prog.bind_assoc, Prog.bind_assoc]
    refine congrArg (lineRecord render (held ++ line) >>= ·) (funext fun record => ?_)
    rw [Prog.bind_assoc, Prog.bind_assoc]
    refine congrArg (writeRecord render log record >>= ·) (funext fun log => ?_)
    exact ih log not_mem_nil

theorem handLines_append (log : RotatingLog) (front back : List Bytes) :
    handLines render log (front ++ back) =
      handLines render log front >>= fun log => handLines render log back := by
  induction front generalizing log with
  | nil => rfl
  | cons line front ih =>
    rw [cons_append, handLines, handLines, Prog.bind_assoc]
    refine congrArg (lineRecord render line >>= ·) (funext fun record => ?_)
    rw [Prog.bind_assoc]
    exact congrArg (writeRecord render log record >>= ·) (funext ih)

/-- What comes later goes on with the line that is held then. -/
theorem writeAll_holding (log : RotatingLog) {held : Bytes} (hheld : newline ∉ held)
    (parts : List Bytes) :
    writeAll render ⟨log, holding held⟩ parts = do
      let log ← handLines render log (ended newline (held ++ parts.flatten))
      return (⟨log, holding (rest newline (held ++ parts.flatten))⟩, parts.map List.length) := by
  induction parts generalizing log held with
  | nil =>
    rw [flatten_nil, append_nil, ended_of_notMem hheld, rest_of_notMem hheld]
    rfl
  | cons buf parts ih =>
    have hrest : newline ∉ rest newline (held ++ buf) := notMem_rest (held ++ buf)
    rw [flatten_cons, ← append_assoc, ended_append (held ++ buf),
      rest_append (held ++ buf), handLines_append, writeAll, write, writeLines_holding log hheld,
      Prog.bind_assoc, Prog.bind_assoc, Prog.bind_assoc]
    refine congrArg (handLines render log (ended newline (held ++ buf)) >>= ·)
      (funext fun log => ?_)
    change (writeAll render ⟨log, holding (rest newline (held ++ buf))⟩ parts >>= fun last =>
      pure (last.1, buf.length :: last.2)) = _
    rw [ih log hrest, Prog.bind_assoc]
    rfl

/-- However a stream is cut into writes, the log hands the records of its ended lines to
`write_record`, holds back what follows the last of them, and reports all bytes as taken. -/
theorem records_of_stream (render : Json Nat → Bytes) (log : RotatingLog) (parts : List Bytes) :
    writeAll render ⟨log, .empty⟩ parts = do
      let log ← handLines render log (ended newline parts.flatten)
      return (⟨log, holding (rest newline parts.flatten)⟩, parts.map List.length) :=
  writeAll_holding log not_mem_nil parts

end Writing

end CyberGuard.Service.Rotation.Lines
