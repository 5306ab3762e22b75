import CyberGuard.Shared.LossyText
import CyberGuard.Agent.Delivery

/-!
# Reading the answer to a POST

`exchange` collects what the server sends until a CRLF is there or the stream ends, and
takes the status from the first line of what it has. How the stream was cut into reads
makes no difference. A stream that is closed inside its first line is read as if the line
were whole.
-/

namespace CyberGuard.Agent.Exchange
set_option autoImplicit false
open LossyText List

abbrev Bytes := List UInt8

def cr : UInt8 := 13
def lf : UInt8 := 10

inductive ExchangeFail where
  | refused (message : String)
  | transient (message : String)
  deriving DecidableEq, Repr

def stripCr (line : List Char) : List Char :=
  if line.getLast? = some '\r' then line.dropLast else line

/-- `str::lines`, the first: the end of a line is LF or CRLF, and the last one needs none. -/
def nextLine (text : List Char) : Option (List Char) :=
  if text.isEmpty then none
  else if text.contains '\n' then
    some (stripCr (text.takeWhile (· != '\n')))
  else some text

/-- `str::parse::<u16>`. -/
def parseU16 (word : List Char) : Option Nat :=
  let digits := match word with
    | '+' :: rest => rest
    | _ => word
  if digits.isEmpty || !digits.all Char.isDigit then none
  else
    let n := Nat.ofDigitChars 10 digits 0
    if n < 65536 then some n else none

def statusCode (line : List Char) : Option Nat :=
  match words line with
  | _ :: word :: _ => parseU16 word
  | _ => none

def parseStatus (buf : Bytes) : Option Nat := (nextLine (lossy buf)).bind statusCode

/-- `buf.windows(2).any(|w| w == b"\r\n")`. -/
def hasCrlf (buf : Bytes) : Bool := (buf.zip buf.tail).any (· == (cr, lf))

/-- The errors of the two `write_all` and of `flush`, where there are some. -/
structure Request where
  writes : List (Option String)
  flush : Option String

def Request.send (request : Request) : Except ExchangeFail Unit :=
  match request.writes.findSome? id, request.flush with
  | some error, _ => .error (.transient ("write: " ++ error))
  | none, some error => .error (.transient ("flush: " ++ error))
  | none, none => .ok ()

inductive Ending where
  | closed
  | failed (error : String)
  deriving DecidableEq, Repr

/-- The loop over `tls.read`: the reads there are, and then the end of the stream. -/
def readAll (buf : Bytes) : List Bytes → Ending → Except ExchangeFail Bytes
  | [], .closed => .ok buf
  | [], .failed error =>
    if buf.isEmpty then
      .error (.refused ("server refused the authenticated session: " ++ error))
    else .error (.transient ("read: " ++ error))
  | chunk :: reads, ending =>
    if chunk.isEmpty then .ok buf
    else if hasCrlf (buf ++ chunk) then .ok (buf ++ chunk)
    else readAll (buf ++ chunk) reads ending

def answer (buf : Bytes) : Except ExchangeFail Nat :=
  if buf.isEmpty then
    .error (.refused "server closed the authenticated connection without an HTTP response")
  else
    match parseStatus buf with
    | some status => .ok status
    | none => .error (.transient "incomplete HTTP response")

def exchange (request : Request) (reads : List Bytes) (ending : Ending) :
    Except ExchangeFail Nat := do
  request.send
  let buf ← readAll [] reads ending
  answer buf

def sendResult : Except ExchangeFail Nat → SendResult
  | .ok status => .status status
  | .error (.refused message) => .clientCertFatal message
  | .error (.transient message) => .transient message

structure Split (stream : Bytes) (reads : List Bytes) : Prop where
  whole : reads.flatten = stream
  sized : ∀ chunk ∈ reads, 1 ≤ chunk.length ∧ chunk.length ≤ 1024

/-- No answer is taken from a stream that was cut: its outcome is the same however it is read, a
status is the code of its first line, which is whole, and a stream that ends inside that line is a
failure that is retried. -/
structure CutSafe (request : Request) (stream : Bytes) (ending : Ending) : Prop where
  split : ∀ reads reads', Split stream reads → Split stream reads' →
    exchange request reads ending = exchange request reads' ending
  status : ∀ reads s, Split stream reads → exchange request reads ending = .ok s →
    ∃ line rest, stream = line ++ cr :: lf :: rest ∧ ¬ [cr, lf] <:+: line ++ [cr] ∧
      statusCode (lossy line) = some s
  cut : ∀ reads, Split stream reads → stream ≠ [] → ¬ [cr, lf] <:+: stream →
    ∃ message, exchange request reads ending = .error (.transient message) ∧
      (sendResult (exchange request reads ending)).attempt = .ok (.transient message)

section Lines
variable {buf rest : Bytes} {before after : List Char}

theorem hasCrlf_cons (first second : UInt8) (buf : Bytes) :
    hasCrlf (first :: second :: buf) =
      ((first == cr && second == lf) || hasCrlf (second :: buf)) := rfl

theorem hasCrlf_iff : hasCrlf buf = true ↔ [cr, lf] <:+: buf := by
  induction buf with
  | nil => simp [hasCrlf]
  | cons first buf ih =>
    cases buf with
    | nil => simp [hasCrlf, infix_cons_iff]
    | cons second buf =>
      rw [infix_cons_iff, ← ih, hasCrlf_cons, Bool.or_eq_true, Bool.and_eq_true, beq_iff_eq,
        beq_iff_eq, cons_prefix_cons, cons_prefix_cons, eq_comm (a := cr),
        eq_comm (a := lf)]
      simp only [and_true, nil_prefix]

theorem lf_mem (h : [cr, lf] <:+: buf) : lf ∈ buf :=
  h.subset (mem_cons_of_mem _ mem_cons_self)

theorem takeWhile_append_lf (before after : List Char) :
    (before ++ '\n' :: after).takeWhile (· != '\n') = before.takeWhile (· != '\n') := by
  induction before with
  | nil => rfl
  | cons c before ih =>
    rw [cons_append, takeWhile_cons, takeWhile_cons, ih]

theorem nextLine_append (before after : List Char) :
    nextLine (before ++ '\n' :: after) = some (stripCr (before.takeWhile (· != '\n'))) := by
  have hmem : (before ++ '\n' :: after).contains '\n' = true :=
    contains_iff_mem.mpr (mem_append_right before mem_cons_self)
  have hne : (before ++ '\n' :: after).isEmpty = false := by
    cases before with
    | nil => rfl
    | cons c before => rfl
  unfold nextLine
  rw [hne, hmem, takeWhile_append_lf]
  rfl

theorem parseStatus_append (h : lf ∈ buf) (rest : Bytes) :
    parseStatus (buf ++ rest) = parseStatus buf := by
  obtain ⟨before, after, rfl⟩ := append_of_mem h
  have hascii : lf < 0x80 := by decide
  unfold parseStatus
  rw [append_assoc, cons_append, lossy_append_ascii before hascii,
    lossy_append_ascii before hascii]
  change (nextLine (lossy before ++ '\n' :: lossy (after ++ rest))).bind statusCode =
    (nextLine (lossy before ++ '\n' :: lossy after)).bind statusCode
  rw [nextLine_append, nextLine_append]

theorem answer_append (h : lf ∈ buf) (rest : Bytes) : answer (buf ++ rest) = answer buf := by
  have hwhole := parseStatus_append h rest
  unfold answer
  cases buf with
  | nil => cases h
  | cons first buf =>
    rw [hwhole]
    rfl

theorem words_stripCr (line : List Char) : words (stripCr line) = words line := by
  unfold stripCr
  split
  · rename_i hlast
    have hline := dropLast_append_getLast? '\r' hlast
    calc words line.dropLast = words line.dropLast ++ words [] := (append_nil _).symm
      _ = words (line.dropLast ++ ['\r']) := (words_append (by decide) _ _).symm
      _ = words line := by rw [hline]
  · rfl

theorem statusCode_append {c : Char} {s : Nat} (hc : isWhitespace c = true)
    (h : statusCode before = some s) (after : List Char) :
    statusCode (before ++ c :: after) = some s := by
  unfold statusCode at h ⊢
  rw [words_append hc]
  split at h
  · rename_i first word more hwords
    rw [hwords]
    exact h
  · cases h

/-- The status of a stream whose first line is whole is the code of that line, also where a bare
LF cuts the line for the parser. -/
theorem statusCode_line {line : Bytes} {s : Nat}
    (h : parseStatus (line ++ cr :: lf :: rest) = some s) : statusCode (lossy line) = some s := by
  unfold parseStatus at h
  rw [lossy_append_ascii line (by decide : cr < 0x80),
    ← nil_append (lf :: rest), lossy_append_ascii [] (by decide : lf < 0x80)] at h
  change (nextLine (lossy line ++ '\r' :: '\n' :: lossy rest)).bind statusCode = some s at h
  rw [append_cons, nextLine_append, Option.bind_some] at h
  have hfirst : statusCode ((lossy line ++ ['\r']).takeWhile (· != '\n')) = some s := by
    unfold statusCode at h ⊢
    rwa [words_stripCr] at h
  have hline : statusCode (lossy line ++ ['\r']) = some s := by
    rw [← takeWhile_append_dropWhile (p := (· != '\n')) (l := lossy line ++ ['\r'])]
    cases hdrop : (lossy line ++ ['\r']).dropWhile (· != '\n') with
    | nil => rwa [append_nil]
    | cons c after =>
      have hc : c = '\n' := by
        have hhead := List.head?_dropWhile_not (· != '\n') (lossy line ++ ['\r'])
        rw [hdrop] at hhead
        simpa using hhead
      rw [hc]
      exact statusCode_append (by decide) hfirst after
  unfold statusCode at hline ⊢
  rwa [words_append (by decide : isWhitespace '\r' = true), show words [] = [] from rfl,
    append_nil] at hline

theorem exists_first_crlf {stream : Bytes} (h : [cr, lf] <:+: stream) :
    ∃ line rest, stream = line ++ cr :: lf :: rest ∧ ¬ [cr, lf] <:+: line ++ [cr] := by
  induction stream with
  | nil => exact absurd (infix_nil.mp h) (cons_ne_nil _ _)
  | cons first stream ih =>
    by_cases hfirst : [cr, lf] <+: first :: stream
    · obtain ⟨rest, hrest⟩ := hfirst
      exact ⟨[], rest, hrest.symm, by decide⟩
    have hlater := (infix_cons_iff.mp h).resolve_left hfirst
    obtain ⟨line, rest, rfl, hnone⟩ := ih hlater
    refine ⟨first :: line, rest, rfl, fun hmore => ?_⟩
    rcases infix_cons_iff.mp hmore with hmore | hmore
    · apply hfirst
      have hlonger : first :: (line ++ [cr]) <+: first :: (line ++ cr :: lf :: rest) :=
        ⟨lf :: rest, by simp⟩
      exact hmore.trans hlonger
    · exact hnone hmore

end Lines

section Reads
variable {stream buf : Bytes} {reads : List Bytes} {ending : Ending} {request : Request}

theorem readAll_crlf (ending : Ending) (hreads : ∀ chunk ∈ reads, chunk ≠ []) (hbuf : ¬ [cr, lf] <:+: buf)
    (h : [cr, lf] <:+: buf ++ reads.flatten) :
    ∃ used rest, used ++ rest = buf ++ reads.flatten ∧ [cr, lf] <:+: used ∧
      readAll buf reads ending = .ok used := by
  induction reads generalizing buf with
  | nil =>
    rw [flatten_nil, append_nil] at h
    exact absurd h hbuf
  | cons chunk reads ih =>
    obtain ⟨hchunk, hrest⟩ := forall_mem_cons.mp hreads
    have hempty : chunk.isEmpty = false := isEmpty_eq_false_iff.mpr hchunk
    rw [flatten_cons, ← append_assoc] at h ⊢
    unfold readAll
    by_cases hnow : [cr, lf] <:+: buf ++ chunk
    · refine ⟨buf ++ chunk, reads.flatten, rfl, hnow, ?_⟩
      rw [hempty, hasCrlf_iff.mpr hnow]
      rfl
    · obtain ⟨used, rest, hused, hcrlf, heq⟩ := ih hrest hnow h
      refine ⟨used, rest, hused, hcrlf, ?_⟩
      rw [hempty, Bool.eq_false_iff.mpr (mt hasCrlf_iff.mp hnow)]
      exact heq

theorem readAll_cut (ending : Ending) (hreads : ∀ chunk ∈ reads, chunk ≠ [])
    (h : ¬ [cr, lf] <:+: buf ++ reads.flatten) :
    readAll buf reads ending = readAll (buf ++ reads.flatten) [] ending := by
  induction reads generalizing buf with
  | nil => rw [flatten_nil, append_nil]
  | cons chunk reads ih =>
    obtain ⟨hchunk, hrest⟩ := forall_mem_cons.mp hreads
    have hempty : chunk.isEmpty = false := isEmpty_eq_false_iff.mpr hchunk
    rw [flatten_cons, ← append_assoc] at h ⊢
    have hnow : ¬ [cr, lf] <:+: buf ++ chunk := fun hcrlf =>
      h (hcrlf.trans (prefix_append _ _).isInfix)
    rw [← ih hrest h, readAll, hempty, Bool.eq_false_iff.mpr (mt hasCrlf_iff.mp hnow)]
    rfl

theorem Split.ne_nil (h : Split stream reads) : ∀ chunk ∈ reads, chunk ≠ [] := fun chunk hmem =>
  ne_nil_of_length_pos (h.sized chunk hmem).1

theorem exchange_crlf (hsent : request.send = .ok ()) (h : Split stream reads)
    (hcrlf : [cr, lf] <:+: stream) : exchange request reads ending = answer stream := by
  obtain ⟨used, rest, hused, hin, hread⟩ :=
    readAll_crlf ending h.ne_nil (by decide : ¬ [cr, lf] <:+: ([] : Bytes))
      (by rwa [nil_append, h.whole])
  rw [nil_append, h.whole] at hused
  unfold exchange
  rw [hsent, hread, ← hused, answer_append (lf_mem hin)]
  rfl

theorem exchange_cut (hsent : request.send = .ok ()) (h : Split stream reads)
    (hcrlf : ¬ [cr, lf] <:+: stream) :
    exchange request reads ending = (readAll stream [] ending).bind answer := by
  have hread : readAll [] reads ending = readAll ([] ++ reads.flatten) [] ending :=
    readAll_cut ending h.ne_nil (by rwa [nil_append, h.whole])
  rw [nil_append, h.whole] at hread
  unfold exchange
  rw [hsent, hread]
  rfl

theorem exchange_unsent {message : String} (hsent : request.send = .error (.transient message)) :
    exchange request reads ending = .error (.transient message) := by
  unfold exchange
  rw [hsent]
  rfl

theorem send_cases (request : Request) :
    request.send = .ok () ∨ ∃ message, request.send = .error (.transient message) := by
  unfold Request.send
  split
  · exact Or.inr ⟨_, rfl⟩
  · exact Or.inr ⟨_, rfl⟩
  · exact Or.inl rfl

theorem answer_eq_ok {s : Nat} (h : answer stream = .ok s) : parseStatus stream = some s := by
  unfold answer at h
  split at h
  · cases h
  · split at h
    · rename_i hstatus
      rw [hstatus, Except.ok.inj h]
    · cases h

theorem answer_of_status {s : Nat} (h : parseStatus stream = some s) : answer stream = .ok s := by
  unfold answer
  cases stream with
  | nil => cases h
  | cons first stream =>
    rw [h]
    rfl

theorem answer_of_none (hne : stream ≠ []) (h : parseStatus stream = none) :
    answer stream = .error (.transient "incomplete HTTP response") := by
  unfold answer
  rw [isEmpty_eq_false_iff.mpr hne, h]
  rfl

theorem split_singletons (stream : Bytes) : Split stream (stream.map fun octet => [octet]) where
  whole := by simp [← flatMap_def]
  sized := by
    intro chunk hchunk
    obtain ⟨octet, -, rfl⟩ := mem_map.mp hchunk
    exact ⟨Nat.le_refl 1, (by decide : 1 ≤ 1024)⟩

end Reads

section Answers
variable {request : Request} {stream : Bytes} {ending : Ending}

theorem cutSafe_unsent {message : String} (hsent : request.send = .error (.transient message)) :
    CutSafe request stream ending where
  split := fun _ _ _ _ => (exchange_unsent hsent).trans (exchange_unsent hsent).symm
  status := fun reads s _ hok => by
    rw [exchange_unsent hsent] at hok
    cases hok
  cut := fun reads _ _ _ => ⟨message, exchange_unsent hsent, by rw [exchange_unsent hsent]; rfl⟩

theorem cutSafe_crlf (hsent : request.send = .ok ()) (hcrlf : [cr, lf] <:+: stream) :
    CutSafe request stream ending where
  split := fun _ _ h h' => (exchange_crlf hsent h hcrlf).trans (exchange_crlf hsent h' hcrlf).symm
  status := fun reads s h hok => by
    rw [exchange_crlf hsent h hcrlf] at hok
    obtain ⟨line, rest, rfl, hfirst⟩ := exists_first_crlf hcrlf
    exact ⟨line, rest, rfl, hfirst, statusCode_line (answer_eq_ok hok)⟩
  cut := fun _ _ _ hcut => absurd hcrlf hcut

/-- Without a CRLF only a read error, or bytes that hold no status, keep the answer from being
taken from the cut line. -/
theorem cutSafe_cut (hsent : request.send = .ok ()) (hcrlf : ¬ [cr, lf] <:+: stream)
    (h : ending ≠ .closed ∨ parseStatus stream = none) : CutSafe request stream ending := by
  have hfails (hne : stream ≠ []) :
      ∃ message, (readAll stream [] ending).bind answer = .error (.transient message) := by
    cases ending with
    | closed =>
      exact ⟨_, answer_of_none hne (h.resolve_left fun hopen => hopen rfl)⟩
    | failed error =>
      refine ⟨"read: " ++ error, ?_⟩
      rw [readAll, isEmpty_eq_false_iff.mpr hne]
      rfl
  refine ⟨fun _ _ h h' => (exchange_cut hsent h hcrlf).trans (exchange_cut hsent h' hcrlf).symm,
    fun reads s hsplit hok => ?_, fun reads hsplit hne _ => ?_⟩
  · rw [exchange_cut hsent hsplit hcrlf] at hok
    by_cases hne : stream = []
    · subst hne
      cases ending with
      | closed | failed => cases hok
    · obtain ⟨message, hmessage⟩ := hfails hne
      rw [hmessage] at hok
      cases hok
  · obtain ⟨message, hmessage⟩ := hfails hne
    rw [exchange_cut hsent hsplit hcrlf, hmessage]
    exact ⟨message, rfl, rfl⟩

end Answers

/-- A cut response is taken as an answer exactly where the stream is closed before any CRLF and
what was received until then reads as a status. -/
theorem cut_response_not_answer (request : Request) (stream : Bytes) (ending : Ending) :
    CutSafe request stream ending ↔
      request.send ≠ .ok () ∨ [cr, lf] <:+: stream ∨ ending ≠ .closed ∨
        parseStatus stream = none := by
  constructor
  · intro h
    by_contra hnone
    obtain ⟨hsent, hcrlf, hclosed, hstatus⟩ : request.send = .ok () ∧ ¬ [cr, lf] <:+: stream ∧
        ending = .closed ∧ parseStatus stream ≠ none := by
      simpa only [not_or, not_not] using hnone
    obtain ⟨s, hs⟩ := Option.ne_none_iff_exists'.mp hstatus
    have hsplit := split_singletons stream
    have hok : exchange request (stream.map fun octet => [octet]) ending = .ok s := by
      rw [exchange_cut hsent hsplit hcrlf, hclosed]
      exact answer_of_status hs
    obtain ⟨line, rest, hline, -⟩ := h.status _ s hsplit hok
    exact hcrlf ⟨line, rest, by rw [hline]; simp⟩
  · intro h
    rcases send_cases request with hsent | ⟨message, hsent⟩
    · by_cases hcrlf : [cr, lf] <:+: stream
      · exact cutSafe_crlf hsent hcrlf
      · apply cutSafe_cut hsent hcrlf
        rcases h with hunsent | hin | hend
        · exact absurd hsent hunsent
        · exact absurd hin hcrlf
        · exact hend
    · exact cutSafe_unsent hsent

def sampleRequest : Request := ⟨[none, none], none⟩

/-- `HTTP/1.1 4`: a status line cut after the first digit of its code. -/
def cutLine : Bytes := [72, 84, 84, 80, 47, 49, 46, 49, 32, 52]

/-- A rejection that was never sent: after enough of them the batch is dropped. -/
theorem cut_status_rejects :
    exchange sampleRequest [cutLine] .closed = .ok 4 ∧
    (sendResult (exchange sampleRequest [cutLine] .closed)).attempt = .ok (.rejected 4) ∧
    ¬ CutSafe sampleRequest cutLine .closed := by
  have hok : exchange sampleRequest [cutLine] .closed = .ok 4 := by decide
  refine ⟨hok, by rw [hok]; rfl, fun h => ?_⟩
  have hsplit : Split cutLine [cutLine] := ⟨by simp, by decide⟩
  obtain ⟨message, hmessage, -⟩ := h.cut [cutLine] hsplit (by decide) (by decide)
  rw [hok] at hmessage
  cases hmessage

end CyberGuard.Agent.Exchange
