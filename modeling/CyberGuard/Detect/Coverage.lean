import CyberGuard.Ingest.DateTexts
import CyberGuard.Detect.Cycle

/-!
# The cursor and the events it has passed

Whatever cursor a cycle stores, no later read by another cycle loses an event by it:
every row at or below the cursor that a read can see has been evaluated. The
cursor is written without a guard, so the assertion is about any cursor a cycle
holds, not about the latest one. It lasts because a cursor is always older than
the settle margin, and rows appear younger than that.

The forward read orders rows by `(arrived_at, event_id)` alone. Two different rows
of one such pair may be separated by the limit; the second is then never read.
-/

namespace CyberGuard.Detect
set_option autoImplicit false
open List
open CyberGuard.Ingest.Heartbeat (StoredRow)
open Interleaving StoreCalls OrderedRead ReplacingTable

abbrev Pair := NormalizedProcessEvent × SigmaRule

section Coverage
variable (H : Host) (D : Driver)

/-- The rule was evaluated on the event and, if it matched, an upsert of the match returned. -/
def Done (s : Store) (pair : Pair) : Prop :=
  pair ∈ s.evaluated ∧ ∀ m, evaluateRule H pair.2 pair.1 = some m → m ∈ s.upserted

/-- No two different rows of the org that ever appeared share `(arrived_at, event_id)`. -/
def Distinct (s : Store) : Prop :=
  ∀ r ∈ s.arrivals, ∀ r' ∈ s.arrivals, Observed D.config r → Observed D.config r' →
    rowPlace H r = rowPlace H r' → r = r'

/-- No row will appear at or below the cursor, and those that are there are done but for what
`owes` says. -/
structure Covers (owes : Pair → Prop) (s : Store) (cursor : DetectCursor) : Prop where
  settled : cursor.arrivedAt + D.config.settle ≤ s.clock
  rows : ∀ r ∈ s.cgesEvents, Observed D.config r → rowPlace H r ≤ cursor.place H →
    ∃ image, ∀ rule ∈ D.config.rules,
      Done H s (normalize r image, rule) ∨ owes (normalize r image, rule)

abbrev Safe : Store → DetectCursor → Prop := Covers H D fun _ => False

structure Fetched (children : List StoredRow) (s : Store) (last : StoredRow) : Prop where
  settled : last.arrivedAt + D.config.settle ≤ s.clock
  rows : ∀ r ∈ s.cgesEvents, Observed D.config r → rowPlace H r ≤ rowPlace H last →
    (∃ image, ∀ rule ∈ D.config.rules, Done H s (normalize r image, rule)) ∨ r ∈ children

/-- What a cycle has still to do before its cursor is safe. -/
def Owes (s : Store) (pair : Pair) : Pc → Prop
  | .evaluate batch | .upsertIncident batch _ _ | .notify batch _ | .runPlaybooks batch _ =>
    pair ∈ batch.work
  | .upsertAlert batch _ m | .upserted batch m _ =>
    pair ∈ batch.work ∨ (pair ∈ s.evaluated ∧ evaluateRule H pair.2 pair.1 = some m)
  | _ => False

def Pc.through : Pc → Option DetectCursor
  | .selectChildren cursor => some cursor
  | .evaluate batch | .upsertIncident batch _ _ | .notify batch _ | .runPlaybooks batch _
  | .upsertAlert batch _ _ | .upserted batch _ _ | .advanceCursor batch =>
    some batch.processedThrough
  | _ => none

def Pc.fetched : Pc → Option (List StoredRow)
  | .selectLaunches children _ | .selectTerminates children _ _ => some children
  | _ => none

structure Sound (s : Store) (pc : Pc) : Prop where
  covers : ∀ cursor, pc.through = some cursor → Covers H D (fun pair => Owes H s pair pc) s cursor
  fetched : ∀ children, pc.fetched = some children →
    ∃ last, children.getLast? = some last ∧ Fetched H D children s last

structure Later (s s' : Store) : Prop where
  clock : s.clock ≤ s'.clock
  rows : ∀ r ∈ s'.cgesEvents, r ∈ s.cgesEvents ∨ s.clock < r.arrivedAt + D.config.settle
  arrivals : s.arrivals ⊆ s'.arrivals
  evaluated : s.evaluated ⊆ s'.evaluated
  upserted : s.upserted ⊆ s'.upserted

/-- What every state has: the rows a read sees are among the arrivals, all after 1970. -/
structure Base (s : Store) : Prop where
  clock : D.config.settle ≤ s.clock
  rows : ∀ r ∈ s.cgesEvents, r ∈ s.arrivals ∧ 0 < r.arrivedAt

variable {H D}

variable {s s' : Store} {pair : Pair} {pc : Pc} {cursor : DetectCursor} {children : List StoredRow}
  {last : StoredRow} {input : Input} {batch : Batch} {m : RuleMatch}

theorem Done.later (h : Done H s pair) (hl : Later D s s') :
    Done H s' pair :=
  ⟨hl.evaluated h.1, fun m hm => hl.upserted (h.2 m hm)⟩

theorem Owes.later (h : Owes H s pair pc) (hl : Later D s s') : Owes H s' pair pc := by
  cases pc with
  | upsertAlert | upserted => exact h.imp_right fun hm => ⟨hl.evaluated hm.1, hm.2⟩
  | _ => exact h

theorem Later.mem_of_place_le (hl : Later D s s')
    (hsettled : cursor.arrivedAt + D.config.settle ≤ s.clock) {r : StoredRow}
    (hr : r ∈ s'.cgesEvents) (hle : rowPlace H r ≤ cursor.place H) : r ∈ s.cgesEvents := by
  rcases hl.rows r hr with hold | hyoung
  · exact hold
  · have harrived : r.arrivedAt ≤ cursor.arrivedAt := arrivedAt_le_of_place_le hle
    omega

theorem Covers.later {owes owes' : Pair → Prop} (h : Covers H D owes s cursor) (hl : Later D s s')
    (howes : ∀ pair, Done H s pair ∨ owes pair → Done H s' pair ∨ owes' pair) :
    Covers H D owes' s' cursor := by
  refine ⟨Int.le_trans h.settled hl.clock, ?_⟩
  intro r hr hobserved hle
  obtain ⟨image, himage⟩ := h.rows r (hl.mem_of_place_le h.settled hr hle) hobserved hle
  exact ⟨image, fun rule hrule => howes _ (himage rule hrule)⟩

theorem Safe.later (h : Safe H D s cursor) (hl : Later D s s') : Safe H D s' cursor :=
  Covers.later h hl fun _ hpair => hpair.imp_left fun hdone => hdone.later hl

theorem Fetched.later (h : Fetched H D children s last) (hl : Later D s s') :
    Fetched H D children s' last := by
  refine ⟨Int.le_trans h.settled hl.clock, ?_⟩
  intro r hr hobserved hle
  have hsettled : (rowCursor last).arrivedAt + D.config.settle ≤ s.clock := h.settled
  have hthere : r ∈ s.cgesEvents := hl.mem_of_place_le hsettled hr hle
  rcases h.rows r hthere hobserved hle with ⟨image, hdone⟩ | hread
  · exact Or.inl ⟨image, fun rule hrule => (hdone rule hrule).later hl⟩
  · exact Or.inr hread

theorem Sound.later (h : Sound H D s pc) (hl : Later D s s') : Sound H D s' pc := by
  refine ⟨?_, ?_⟩
  · intro cursor hcursor
    exact (h.covers cursor hcursor).later hl fun _ hpair =>
      hpair.imp (fun hdone => hdone.later hl) fun howes => howes.later hl
  · intro children hchildren
    obtain ⟨last, hlast, hfetched⟩ := h.fetched children hchildren
    exact ⟨last, hlast, hfetched.later hl⟩

theorem Later.refl (s : Store) : Later D s s :=
  ⟨Int.le_refl _, fun _ h => Or.inl h, fun _ h => h, fun _ h => h, fun _ h => h⟩

theorem later_effect (input : Input) (s : Store) (pc : Pc) :
    Later D s (effect D input s pc) := by
  have hrefl : Later D s s := Later.refl s
  cases pc with
  | evaluate batch => exact { hrefl with evaluated := subset_append_left _ _ }
  | upserted batch m alertId => exact { hrefl with upserted := subset_append_left _ _ }
  | _ => exact { hrefl with }

theorem later_of_act {i : Nat} {pc' : Pc} (h : (detection H D).act i s pc s' pc') :
    Later D s s' := by
  rcases act_spec h with ⟨input, _, rfl, _⟩ | ⟨_, _, rfl | ⟨input, _, rfl⟩⟩
  · exact later_effect input s pc
  · exact Later.refl s'
  · exact later_effect input s pc

theorem Environment.later (h : Environment D s s') :
    Later D s s' := by
  have hrefl : Later D s s := Later.refl s
  cases h with
  | tick hnow => exact { hrefl with clock := hnow }
  | @appear stored hpast hyoung =>
    refine { hrefl with rows := ?_, arrivals := subset_append_left _ _ }
    intro r hr
    rcases mem_append.mp hr with hold | hnew
    · exact Or.inl hold
    · rw [mem_singleton.mp hnew]
      exact Or.inr hyoung
  | merge hmerged => exact { hrefl with rows := fun r hr => Or.inl (hmerged.mem_of_mem hr) }
  | triage status assignedTo => exact { hrefl with }

theorem Base.effect (h : Base D s) :
    Base D (effect D input s pc) := by
  cases pc <;> exact ⟨h.clock, h.rows⟩

theorem Base.environment (h : Base D s) (henv : Environment D s s') :
    Base D s' := by
  cases henv with
  | tick hnow => exact ⟨Int.le_trans h.clock hnow, h.rows⟩
  | @appear stored hpast hyoung =>
    refine ⟨h.clock, ?_⟩
    intro r hr
    rcases mem_append.mp hr with hold | hnew
    · exact ⟨mem_append_left _ (h.rows r hold).1, (h.rows r hold).2⟩
    · have hclock := h.clock
      rw [mem_singleton.mp hnew]
      exact ⟨mem_append_right _ mem_cons_self, by omega⟩
  | merge hmerged => exact ⟨h.clock, fun r hr => h.rows r (hmerged.mem_of_mem hr)⟩
  | triage status assignedTo => exact ⟨h.clock, h.rows⟩

theorem Base.safe_start (h : Base D s) : Safe H D s cursorStart := by
  refine ⟨?_, ?_⟩
  · have hclock := h.clock
    simp only [cursorStart, Int.zero_add]
    exact hclock
  · intro r hr _ hle
    have harrived : r.arrivedAt ≤ 0 := arrivedAt_le_of_place_le hle
    have hpos := (h.rows r hr).2
    omega

theorem mem_read_or_tie {now : Int} {rows : List StoredRow} {r : StoredRow}
    (hread : ChildrenRead H D.config now rows cursor batchLimit children) (hlast : last ∈ children)
    (hr : r ∈ rows) (hobserved : Observed D.config r) (hafter : cursor.place H < rowPlace H r)
    (hle : rowPlace H r ≤ rowPlace H last) : r ∈ children ∨ rowPlace H r = rowPlace H last := by
  obtain ⟨_, hforward⟩ := mem_filter.mp (Answers.mem hread hlast)
  obtain ⟨_, _, _, hold⟩ := of_decide_eq_true hforward
  have harrived : r.arrivedAt ≤ last.arrivedAt := arrivedAt_le_of_place_le hle
  have heligible : Forward H D.config now cursor r :=
    ⟨hobserved, arrivedAt_le_of_place_le (le_of_lt hafter), hafter, Int.le_trans harrived hold⟩
  exact Answers.mem_or_tie hread hlast (mem_filter.mpr ⟨hr, decide_eq_true heligible⟩) hle

theorem fetched_of_read (hbase : Base D s) (hdistinct : Distinct H D s) (hsafe : Safe H D s cursor)
    (hread : ChildrenRead H D.config s.clock s.cgesEvents cursor batchLimit children)
    (hlast : children.getLast? = some last) : Fetched H D children s last := by
  have hmem : last ∈ children := mem_of_getLast? hlast
  obtain ⟨hthere, hforward⟩ := mem_filter.mp (Answers.mem hread hmem)
  obtain ⟨hobserved, _, _, hold⟩ := of_decide_eq_true hforward
  refine ⟨by omega, ?_⟩
  intro r hr hr' hle
  by_cases hpassed : rowPlace H r ≤ cursor.place H
  · obtain ⟨image, himage⟩ := hsafe.rows r hr hr' hpassed
    exact Or.inl ⟨image, fun rule hrule => (himage rule hrule).resolve_right id⟩
  · rcases mem_read_or_tie hread hmem hr hr' (lt_of_not_ge hpassed) hle with hread' | htie
    · exact Or.inr hread'
    · have hsame : r = last :=
        hdistinct r (hbase.rows r hr).1 last (hbase.rows last hthere).1 hr' hobserved htie
      rw [hsame]
      exact Or.inr hmem

theorem exists_mem_zip {α β : Type} {l : List α} {l' : List β} (hlen : l'.length = l.length)
    {a : α} (ha : a ∈ l) : ∃ b, (a, b) ∈ l.zip l' := by
  induction l generalizing l' with
  | nil => cases ha
  | cons first rest ih =>
    cases l' with
    | nil => cases hlen
    | cons b bs =>
      rcases mem_cons.mp ha with rfl | hrest
      · exact ⟨b, mem_cons_self⟩
      · obtain ⟨b', hb'⟩ := ih (Nat.succ.inj hlen) hrest
        exact ⟨b', mem_cons_of_mem _ hb'⟩

theorem Fetched.sound (h : Fetched H D children s last) {images : List (Option String)}
    (hlen : images.length = children.length) :
    Sound H D s (.evaluate (batchOf D.config children images last)) := by
  refine ⟨?_, fun _ hnone => by cases hnone⟩
  intro cursor hcursor
  obtain rfl := Option.some.inj hcursor
  refine ⟨h.settled, ?_⟩
  intro r hr hobserved hle
  rcases h.rows r hr hobserved hle with ⟨image, hdone⟩ | hread
  · exact ⟨image, fun rule hrule => Or.inl (hdone rule hrule)⟩
  · obtain ⟨image, himage⟩ := exists_mem_zip hlen hread
    refine ⟨image, fun rule hrule => Or.inr ?_⟩
    exact mem_flatMap.mpr ⟨(r, image), himage, mem_map_of_mem hrule⟩

theorem sound_of_ended (hthrough : pc.through = none) (hfetched : pc.fetched = none) :
    Sound H D s pc := by
  refine ⟨?_, ?_⟩
  · intro cursor hcursor
    rw [hthrough] at hcursor
    cases hcursor
  · intro children hchildren
    rw [hfetched] at hchildren
    cases hchildren

theorem sound_afterParents (h : ∃ last, children.getLast? = some last ∧ Fetched H D children s last)
    (launches : List LaunchRow) (terminates : List TerminateRow) :
    Sound H D s (afterParents D.config children launches terminates) := by
  obtain ⟨last, hlast, hfetched⟩ := h
  rw [afterParents, hlast]
  cases himages : resolveParents launches terminates children with
  | none => exact sound_of_ended rfl rfl
  | some images => exact hfetched.sound (length_resolveParents himages)

theorem Sound.moves {pc' : Pc} (h : Sound H D s pc) (hl : Later D s s')
    (hthrough : ∀ cursor, pc'.through = some cursor → pc.through = some cursor)
    (hfetched : pc'.fetched = none)
    (howes : ∀ pair, Owes H s pair pc → Done H s' pair ∨ Owes H s' pair pc') :
    Sound H D s' pc' := by
  refine ⟨?_, ?_⟩
  · intro cursor hcursor
    refine (h.covers cursor (hthrough cursor hcursor)).later hl ?_
    intro pair hpair
    rcases hpair with hdone | howed
    · exact Or.inl (hdone.later hl)
    · exact howes pair howed
  · intro children hchildren
    rw [hfetched] at hchildren
    cases hchildren

theorem sound_evaluate (h : Sound H D s (.evaluate batch)) (input : Input) :
    Sound H D (effect D input s (.evaluate batch)) (resume H D input s (.evaluate batch)) := by
  have hl := later_effect (D := D) input s (.evaluate batch)
  obtain ⟨work, through, total, written⟩ := batch
  cases work with
  | nil => exact h.moves hl (fun _ hc => hc) rfl fun pair hpair => by cases hpair
  | cons first rest =>
    obtain ⟨event, rule⟩ := first
    have hlogged : (event, rule) ∈ (effect D input s
        (.evaluate ⟨(event, rule) :: rest, through, total, written⟩)).evaluated :=
      mem_append_right _ mem_cons_self
    cases hmatch : evaluateRule H rule event with
    | none =>
      rw [resume_evaluate_cons, hmatch]
      refine h.moves hl (fun _ hc => hc) rfl ?_
      intro pair hpair
      rcases mem_cons.mp hpair with rfl | hrest
      · refine Or.inl ⟨hlogged, fun m hm => ?_⟩
        rw [hmatch] at hm
        cases hm
      · exact Or.inr hrest
    | some m =>
      rw [resume_evaluate_cons, hmatch]
      refine h.moves hl (fun _ hc => hc) rfl ?_
      intro pair hpair
      rcases mem_cons.mp hpair with rfl | hrest
      · exact Or.inr (Or.inr ⟨hlogged, hmatch⟩)
      · exact Or.inr (Or.inl hrest)

section goesOn
variable (h : Sound H D s pc) (hl : Later D s s')
  (hthrough : pc.through = some batch.processedThrough)
  (howes : ∀ pair, Owes H s pair pc → pair ∈ batch.work)
include h hl hthrough howes

theorem sound_afterNotify (incident : UpsertIncidentResult) :
    Sound H D s' (afterNotify D batch incident) := by
  rw [afterNotify]
  split
  · exact h.moves hl (fun _ hc => hthrough.trans hc) rfl fun pair hpair => Or.inr (howes pair hpair)
  · exact h.moves hl (fun _ hc => hthrough.trans hc) rfl fun pair hpair => Or.inr (howes pair hpair)

theorem sound_afterIncident (incident : UpsertIncidentResult) :
    Sound H D s' (afterIncident D batch incident) := by
  rw [afterIncident]
  split
  · exact h.moves hl (fun _ hc => hthrough.trans hc) rfl fun pair hpair => Or.inr (howes pair hpair)
  · exact sound_afterNotify h hl hthrough howes incident

theorem sound_afterUpsert (incidents : List IncidentRow) (excluded : Option IncidentRow) :
    Sound H D s' (afterUpsert D batch incidents excluded) := by
  cases excluded with
  | none => exact sound_of_ended rfl rfl
  | some excluded => exact sound_afterIncident h hl hthrough howes _

end goesOn

theorem owes_upserted {alertId : Option String} (input : Input)
    (h : Owes H s pair (.upserted batch m alertId)) :
    Done H (effect D input s (.upserted batch m alertId)) pair ∨ pair ∈ batch.work := by
  rcases h with hwork | ⟨hevaluated, hmatch⟩
  · exact Or.inr hwork
  · refine Or.inl ⟨hevaluated, fun m' hm' => ?_⟩
    obtain rfl : m = m' := Option.some.inj (hmatch.symm.trans hm')
    exact mem_append_right _ mem_cons_self

/-- A call that is answered keeps the assertion of its cycle. -/
theorem Sound.resume (h : Sound H D s pc) (hbase : Base D s) (hdistinct : Distinct H D s)
    (hsafe : Safe H D s (getCursor s)) (hadmissible : admissible H D input s pc) :
    Sound H D (effect D input s pc) (resume H D input s pc) := by
  have hl := later_effect (D := D) input s pc
  cases pc with
  | getCursor =>
    refine ⟨?_, fun _ hnone => by cases hnone⟩
    intro cursor hcursor
    obtain rfl := Option.some.inj hcursor
    exact hsafe
  | selectChildren cursor =>
    have hcursor : Safe H D s cursor := h.covers cursor rfl
    rw [resume_selectChildren]
    cases hlast : input.children.getLast? with
    | none => exact sound_of_ended rfl rfl
    | some last =>
      have hfetched := fetched_of_read hbase hdistinct hcursor hadmissible hlast
      cases spanOf input.children with
      | none => exact hfetched.sound (length_map _)
      | some span =>
        refine ⟨fun _ hnone => (by cases hnone), ?_⟩
        intro children hchildren
        obtain rfl := Option.some.inj hchildren
        exact ⟨last, hlast, hfetched⟩
  | selectLaunches children span =>
    rw [resume_selectLaunches]
    split
    · exact sound_afterParents (h.fetched children rfl) input.launches []
    · exact ⟨fun _ hnone => (by cases hnone), h.fetched⟩
  | selectTerminates children span launches =>
    exact sound_afterParents (h.fetched children rfl) launches input.terminates
  | evaluate batch => exact sound_evaluate h input
  | upsertAlert | runPlaybooks =>
    exact h.moves hl (fun _ hc => hc) rfl fun pair hpair => Or.inr hpair
  | upserted batch m alertId =>
    cases alertId with
    | none => exact h.moves hl (fun _ hc => hc) rfl fun pair hpair => owes_upserted input hpair
    | some alertId =>
      exact h.moves hl (fun _ hc => hc) rfl fun pair hpair => owes_upserted input hpair
  | upsertIncident batch m alertId =>
    exact sound_afterUpsert h hl rfl (fun pair hpair => hpair) _ _
  | notify batch incident => exact sound_afterNotify h hl rfl (fun pair hpair => hpair) incident
  | advanceCursor batch => exact sound_of_ended rfl rfl
  | returned | rejected => exact hadmissible.elim

theorem safe_effect (input : Input) (h : Sound H D s pc) (hsafe : Safe H D s (getCursor s)) :
    Safe H D (effect D input s pc) (getCursor (effect D input s pc)) := by
  have hl := later_effect (D := D) input s pc
  cases pc with
  | advanceCursor batch => exact Safe.later (h.covers batch.processedThrough rfl) hl
  | _ => exact hsafe.later hl

theorem Environment.getCursor_eq (h : Environment D s s') :
    getCursor s' = getCursor s := by
  cases h <;> rfl

theorem Distinct.earlier (h : Distinct H D s') (hl : Later D s s') :
    Distinct H D s :=
  fun r hr r' hr' => h r (hl.arrivals hr) r' (hl.arrivals hr')

theorem coverage_outline : Outline (detection H D)
    (fun _ s => Base D s ∧ (Distinct H D s → Safe H D s (getCursor s)))
    (fun _ s pc => Distinct H D s → Sound H D s pc) where
  spawn := by
    intro n s pc hG hstart
    obtain rfl : pc = .getCursor := hstart
    exact ⟨hG, fun _ => sound_of_ended rfl rfl⟩
  self := by
    intro n i s pc s' pc' _ hG hL hact
    have hl := later_of_act hact
    have hsound : Distinct H D s' → Sound H D s pc := fun hd => hL (hd.earlier hl)
    have hsafe : Distinct H D s' → Safe H D s (getCursor s) := fun hd => hG.2 (hd.earlier hl)
    rcases act_spec hact with ⟨input, hadmissible, rfl, rfl⟩ | ⟨_, rfl, rfl | ⟨input, _, rfl⟩⟩
    · exact ⟨⟨hG.1.effect, fun hd => safe_effect input (hsound hd) (hsafe hd)⟩,
        fun hd => (hsound hd).resume hG.1 (hd.earlier hl) (hsafe hd) hadmissible⟩
    · exact ⟨hG, fun _ => sound_of_ended rfl rfl⟩
    · exact ⟨⟨hG.1.effect, fun hd => safe_effect input (hsound hd) (hsafe hd)⟩,
        fun _ => sound_of_ended rfl rfl⟩
  other := by
    intro n i j s pc s' pc' qc _ hG _ hL hact hd
    have hl := later_of_act hact
    exact (hL (hd.earlier hl)).later hl
  env := by
    intro n s s' hG henv
    have hl := Environment.later henv
    refine ⟨⟨hG.1.environment henv, ?_⟩, ?_⟩
    · intro hd
      rw [Environment.getCursor_eq henv]
      exact (hG.2 (hd.earlier hl)).later hl
    · intro i pc hL hd
      exact (hL (hd.earlier hl)).later hl

/-- The alert of a match is in the table, written for it or for an earlier match of its key. -/
def Recorded (s : Store) (m : RuleMatch) : Prop :=
  ∃ alert ∈ s.alerts, buildDedupKey m = some alert.dedupKey

theorem alerts_effect (input : Input) (s : Store) (pc : Pc) :
    s.alerts ⊆ (effect D input s pc).alerts := by
  cases pc with
  | upsertAlert batch rule m => exact subset_append_left _ _
  | _ => exact fun _ h => h

theorem upserted_effect (h : m ∈ (effect D input s pc).upserted) :
    m ∈ s.upserted ∨ ∃ batch alertId, pc = .upserted batch m alertId := by
  cases pc with
  | upserted batch m' alertId =>
    rcases mem_append.mp h with hold | hnew
    · exact Or.inl hold
    · rw [mem_singleton.mp hnew]
      exact Or.inr ⟨batch, alertId, rfl⟩
  | _ => exact Or.inl h

theorem Recorded.mono (h : Recorded s m) (halerts : s.alerts ⊆ s'.alerts) : Recorded s' m := by
  obtain ⟨alert, halert, hkey⟩ := h
  exact ⟨alert, halerts halert, hkey⟩

section
variable {batch : Batch} {m : RuleMatch} {alertId : Option String}

theorem afterParents_ne_upserted (c : DetectConfig) (children : List StoredRow)
    (launches : List LaunchRow) (terminates : List TerminateRow) :
    afterParents c children launches terminates ≠ .upserted batch m alertId := by
  intro h
  rw [afterParents] at h
  split at h <;> cases h

theorem afterNotify_ne_upserted (batch' : Batch) (incident : UpsertIncidentResult) :
    afterNotify D batch' incident ≠ .upserted batch m alertId := by
  intro h
  rw [afterNotify] at h
  split at h <;> cases h

theorem afterIncident_ne_upserted (batch' : Batch) (incident : UpsertIncidentResult) :
    afterIncident D batch' incident ≠ .upserted batch m alertId := by
  intro h
  rw [afterIncident] at h
  split at h
  · cases h
  · exact afterNotify_ne_upserted batch' incident h

theorem afterUpsert_ne_upserted (batch' : Batch) (incidents : List IncidentRow)
    (excluded : Option IncidentRow) :
    afterUpsert D batch' incidents excluded ≠ .upserted batch m alertId := by
  cases excluded with
  | none => exact fun h => by cases h
  | some excluded => exact afterIncident_ne_upserted batch' _

end

/-- Only a call of `upsertAlert` that was answered leads to `upserted`. -/
theorem recorded_resume {alertId : Option String} (hadmissible : admissible H D input s pc)
    (h : resume H D input s pc = .upserted batch m alertId) :
    Recorded (effect D input s pc) m := by
  cases pc with
  | upsertAlert batch' rule m' =>
    obtain ⟨_, rfl, _⟩ := Pc.upserted.inj h
    obtain ⟨seconds, hseconds⟩ := Option.isSome_iff_exists.mp hadmissible.1
    have hkey : buildDedupKey m' = some (dedupKey m' seconds) := by
      rw [buildDedupKey, hseconds]
      rfl
    obtain ⟨alert, halert, hsame⟩ :=
      exists_dedupKey_insertAlert (c := D.config) s.alerts input.id rule hkey
    exact ⟨alert, halert, by rw [hkey, hsame]⟩
  | selectChildren cursor =>
    rw [resume_selectChildren] at h
    split at h
    · cases h
    · split at h <;> cases h
  | selectLaunches children span =>
    rw [resume_selectLaunches] at h
    split at h
    · exact absurd h (afterParents_ne_upserted _ _ _ _)
    · cases h
  | selectTerminates children span launches =>
    exact absurd h (afterParents_ne_upserted _ _ _ _)
  | evaluate batch' =>
    obtain ⟨work, through, total, written⟩ := batch'
    cases work with
    | nil => cases h
    | cons first rest =>
      rw [resume_evaluate_cons] at h
      split at h <;> cases h
  | upserted batch' m' alertId' => cases alertId' <;> cases h
  | upsertIncident batch' m' alertId' =>
    exact absurd h (afterUpsert_ne_upserted _ _ _)
  | notify batch' incident => exact absurd h (afterNotify_ne_upserted _ _)
  | getCursor | runPlaybooks | advanceCursor | returned | rejected => cases h

theorem recorded_outline : Outline (detection H D)
    (fun _ s => ∀ m ∈ s.upserted, Recorded s m)
    (fun _ s pc => ∀ batch m alertId, pc = .upserted batch m alertId → Recorded s m) where
  spawn := by
    intro n s pc hG hstart
    obtain rfl : pc = .getCursor := hstart
    exact ⟨hG, fun _ _ _ h => by cases h⟩
  self := by
    intro n i s pc s' pc' _ hG hL hact
    have heffect : ∀ input, ∀ m ∈ (effect D input s pc).upserted,
        Recorded (effect D input s pc) m := by
      intro input m hm
      have hrecorded : Recorded s m := by
        rcases upserted_effect hm with hold | ⟨batch, alertId, hpc⟩
        · exact hG m hold
        · exact hL batch m alertId hpc
      exact hrecorded.mono (alerts_effect input s pc)
    rcases act_spec hact with ⟨input, hadmissible, rfl, rfl⟩ | ⟨_, rfl, rfl | ⟨input, _, rfl⟩⟩
    · exact ⟨heffect input, fun batch m alertId h => recorded_resume hadmissible h⟩
    · exact ⟨hG, fun _ _ _ h => by cases h⟩
    · exact ⟨heffect input, fun _ _ _ h => by cases h⟩
  other := by
    intro n i j s pc s' pc' qc _ _ _ hL hact batch m alertId hqc
    refine (hL batch m alertId hqc).mono ?_
    rcases act_spec hact with ⟨input, _, rfl, _⟩ | ⟨_, _, rfl | ⟨input, _, rfl⟩⟩
    · exact alerts_effect input s pc
    · exact fun _ h => h
    · exact alerts_effect input s pc
  env := by
    intro n s s' hG henv
    cases henv <;> exact ⟨hG, fun _ _ hL => hL⟩

/-- Where the cycles of an org start: no cursor stored but the first, and a clock and rows later
than 1970. -/
structure Initial (D : Driver) (s : Store) : Prop where
  cursor : getCursor s = cursorStart
  clock : D.config.settle ≤ s.clock
  rows : ∀ r ∈ s.cgesEvents, 0 < r.arrivedAt
  arrivals : s.arrivals = s.cgesEvents
  evaluated : s.evaluated = []
  upserted : s.upserted = []

theorem Initial.base (h : Initial D s) : Base D s := by
  refine ⟨h.clock, ?_⟩
  intro r hr
  rw [h.arrivals]
  exact ⟨hr, h.rows r hr⟩

/-- At every moment of every run, whatever cycles abort, overlap or store an older cursor over a
newer one: a row at or below the stored cursor has been evaluated against every rule, and for each
match an upsert has returned and its alert is in the table. -/
theorem stored_cursor_safe {s₀ : Store} {q : Pool Store Pc} (hinitial : Initial D s₀)
    (hrun : Run (detection H D) ⟨s₀, []⟩ q) (hdistinct : Distinct H D q.store) :
    ∀ cursor, q.store.watermark = some cursor → ∀ r ∈ q.store.cgesEvents,
      Observed D.config r → rowPlace H r ≤ cursor.place H →
      ∃ image, ∀ rule ∈ D.config.rules, (normalize r image, rule) ∈ q.store.evaluated ∧
        ∀ m, evaluateRule H rule (normalize r image) = some m →
          m ∈ q.store.upserted ∧ Recorded q.store m := by
  intro cursor hcursor r hr hobserved hle
  have hstart : Base D s₀ ∧ (Distinct H D s₀ → Safe H D s₀ (getCursor s₀)) := by
    rw [hinitial.cursor]
    exact ⟨hinitial.base, fun _ => hinitial.base.safe_start⟩
  have hcovered := (coverage_outline.run (Holds.initial hstart) hrun).store.2 hdistinct
  have hnothing : ∀ m ∈ s₀.upserted, Recorded s₀ m := by
    rw [hinitial.upserted]
    intro m hm
    cases hm
  have hrecorded := (recorded_outline.run (Holds.initial hnothing) hrun).store
  rw [getCursor, hcursor] at hcovered
  obtain ⟨image, himage⟩ := hcovered.rows r hr hobserved hle
  refine ⟨image, fun rule hrule => ?_⟩
  obtain ⟨hevaluated, hupserted⟩ := (himage rule hrule).resolve_right id
  exact ⟨hevaluated, fun m hm => ⟨hupserted m hm, hrecorded m (hupserted m hm)⟩⟩

end Coverage

theorem sample_initial {rows : List StoredRow} (h : ∀ r ∈ rows, r.arrivedAt = 5000) :
    Initial sampleDriver (sampleStore rows) := by
  have hclock : (5000 : Int) ≤ 10000 := by decide
  refine ⟨rfl, hclock, ?_, rfl, rfl, rfl⟩
  intro r hr
  rw [h r hr]
  decide

theorem sample_cursor_safe : ∃ q : Pool Store Pc,
    Run (detection sampleHost sampleDriver) ⟨sampleStore [sampleLaunch (sampleId 1)], []⟩ q ∧
    ∃ image, ∀ rule ∈ sampleDriver.config.rules,
      (normalize (sampleLaunch (sampleId 1)) image, rule) ∈ q.store.evaluated ∧
      ∀ m, evaluateRule sampleHost rule (normalize (sampleLaunch (sampleId 1)) image) = some m →
        m ∈ q.store.upserted ∧ Recorded q.store m := by
  obtain ⟨q, hrun, hcursor, hrows, harrivals, _⟩ := sample_run (sampleId 1)
  have hinitial : Initial sampleDriver (sampleStore [sampleLaunch (sampleId 1)]) :=
    sample_initial fun r hr => by rw [mem_singleton.mp hr]; rfl
  have hdistinct : Distinct sampleHost sampleDriver q.store := by
    intro r hr r' hr' _ _ _
    rw [harrivals] at hr hr'
    rw [mem_singleton.mp hr, mem_singleton.mp hr']
  have hmem : sampleLaunch (sampleId 1) ∈ q.store.cgesEvents := by
    rw [hrows]
    exact mem_cons_self
  exact ⟨q, hrun, stored_cursor_safe hinitial hrun hdistinct _ hcursor _ hmem ⟨rfl, rfl⟩
    (le_refl _)⟩

def sampleTerminate (eventId : String) : StoredRow where
  row := { (sampleLaunch eventId).row with activityId := 2, time := "2026-05-28 19:47:11.000000000" }
  arrivedAt := 5000

theorem rank_sampleId (n : Nat) : sampleHost.uuidRank (sampleId n) = n := by
  have happend : (sampleId n).toList =
      "01970f6e-7c00-7000-8000-".toList ++ (Ingest.padStart 12 n).toList := String.toList_append
  have hlength : "01970f6e-7c00-7000-8000-".toList.length = 24 := by decide
  have hgroup : (sampleId n).toList.drop 24 = (Ingest.padStart 12 n).toList := by
    rw [happend]
    generalize "01970f6e-7c00-7000-8000-".toList = front at hlength
    rw [← hlength, drop_left]
  simp only [sampleHost, hgroup, String.ofList_toList, Ingest.bigInt_padStart, Option.getD_some]

def terminates (n : Nat) : List StoredRow :=
  (List.range (n + 1)).map fun k => sampleTerminate (sampleId k)

def tied (n : Nat) : StoredRow := sampleLaunch (sampleId n)

section Tie
variable {n : Nat}

variable {r : StoredRow}

theorem mem_terminates (h : r ∈ terminates n) :
    ∃ k, k ≤ n ∧ r = sampleTerminate (sampleId k) := by
  obtain ⟨k, hk, rfl⟩ := mem_map.mp h
  exact ⟨k, Nat.le_of_lt_succ (mem_range.mp hk), rfl⟩

theorem length_terminates (n : Nat) : (terminates n).length = n + 1 := by
  rw [terminates, length_map, length_range]

theorem getLast?_terminates (n : Nat) :
    (terminates n).getLast? = some (sampleTerminate (sampleId n)) := by
  rw [terminates, range_succ, map_append, map_singleton, List.getLast?_concat]

theorem place_sample {k : Nat} (harrived : r.arrivedAt = 5000)
    (hid : r.row.eventId = sampleId k) :
    rowPlace sampleHost r = toLex (5000, k) := by
  rw [rowPlace, DetectCursor.place, rowCursor, harrived, hid, rank_sampleId]

theorem sorted_terminates (n : Nat) : (terminates n ++ [tied n]).Pairwise fun r r' =>
    rowPlace sampleHost r ≤ rowPlace sampleHost r' := by
  refine pairwise_append.mpr ⟨?_, pairwise_singleton _ _, ?_⟩
  · refine pairwise_map.mpr (pairwise_lt_range.imp ?_)
    intro k j hlt
    rw [place_sample rfl rfl, place_sample rfl rfl]
    exact Prod.Lex.toLex_le_toLex.mpr (Or.inr ⟨rfl, Nat.le_of_lt hlt⟩)
  · intro r hr r' hr'
    obtain ⟨k, hk, rfl⟩ := mem_terminates hr
    rw [mem_singleton.mp hr', place_sample rfl rfl, place_sample rfl rfl]
    exact Prod.Lex.toLex_le_toLex.mpr (Or.inr ⟨rfl, hk⟩)

theorem mem_tied_rows (h : r ∈ terminates n ++ [tied n]) :
    Observed sampleDriver.config r ∧ r.arrivedAt = 5000 := by
  rcases mem_append.mp h with hterminate | htied
  · obtain ⟨k, _, rfl⟩ := mem_terminates hterminate
    exact ⟨⟨rfl, rfl⟩, rfl⟩
  · rw [mem_singleton.mp htied]
    exact ⟨⟨rfl, rfl⟩, rfl⟩

theorem spanOf_terminates (n : Nat) : spanOf (terminates n) = none := by
  have hnone : (terminates n).filter (fun stored => stored.row.processParentPid.isSome) = [] := by
    refine filter_eq_nil_iff.mpr fun r hr => ?_
    obtain ⟨k, _, rfl⟩ := mem_terminates hr
    exact Bool.false_ne_true
  rw [spanOf, hnone]

theorem activityId_of_work {images : List (Option String)} (last : StoredRow) {pair : Pair}
    (h : pair ∈ (batchOf sampleDriver.config (terminates n) images last).work) :
    pair.1.activityId = 2 := by
  obtain ⟨⟨child, image⟩, hchild, hpair⟩ := mem_flatMap.mp h
  obtain ⟨k, _, rfl⟩ := mem_terminates (of_mem_zip hchild).1
  obtain ⟨rule, _, rfl⟩ := mem_map.mp hpair
  rfl

end Tie

/-- One cycle stores the cursor of a row that the limit separated from another of its pair. The
other matches the rule; it is at the cursor and was not evaluated, and reads from this cursor on
do not return it. The same is true of a row before the cursor that is seen first when it is
exactly the margin old. -/
theorem rows_passed_over : (∃ (rows : List StoredRow) (r : StoredRow) (q : Pool Store Pc)
    (cursor : DetectCursor), Initial sampleDriver (sampleStore rows) ∧
    Run (detection sampleHost sampleDriver) ⟨sampleStore rows, []⟩ q ∧
    q.store.watermark = some cursor ∧ r ∈ q.store.cgesEvents ∧
    Observed sampleDriver.config r ∧ rowPlace sampleHost r ≤ cursor.place sampleHost ∧
    (∀ image, ∃ m, evaluateRule sampleHost sampleRule (normalize r image) = some m) ∧
    (∀ image rule, (normalize r image, rule) ∉ q.store.evaluated) ∧ q.store.alerts = []) ∧
    ∃ (rows : List StoredRow) (r : StoredRow) (q : Pool Store Pc) (cursor : DetectCursor),
      Initial sampleDriver (sampleStore rows) ∧
      Run (detection sampleHost sampleDriver) ⟨sampleStore rows, []⟩ q ∧
      q.store.watermark = some cursor ∧
      q.store.clock = r.arrivedAt + sampleDriver.config.settle ∧
      Observed sampleDriver.config r ∧ rowPlace sampleHost r ≤ cursor.place sampleHost ∧
      (∀ image, ∃ m, evaluateRule sampleHost sampleRule (normalize r image) = some m) ∧
      ∀ image rule, (normalize r image, rule) ∉ q.store.evaluated := by
  constructor
  · obtain ⟨n, hn⟩ : ∃ n, n + 1 = batchLimit := ⟨999, rfl⟩
    have hlen : (terminates n).length = batchLimit := (length_terminates n).trans hn
    have hread := sample_read _ _ (fun r hr => mem_tied_rows hr) (sorted_terminates n)
      (Nat.le_of_eq hlen) (Or.inr hlen)
    have hevaluate := run_to_evaluate (H := sampleHost) (D := sampleDriver)
      (s := sampleStore (terminates n ++ [tied n])) [] hread (getLast?_terminates n)
      (spanOf_terminates n)
    have hnone : ∀ pair ∈ (batchOf sampleDriver.config (terminates n)
        ((terminates n).map fun _ => none) (sampleTerminate (sampleId n))).work,
        evaluateRule sampleHost pair.2 pair.1 = none := by
      intro pair hpair
      refine evaluateRule_of_not_launch pair.2 ?_
      rw [activityId_of_work _ hpair]
      decide
    have hadvance := run_unmatched (H := sampleHost) (D := sampleDriver) [] _ hnone
      (sampleStore (terminates n ++ [tied n])) (rowCursor (sampleTerminate (sampleId n)))
      (terminates n).length 0
    refine ⟨_, tied n, _, rowCursor (sampleTerminate (sampleId n)),
      sample_initial fun r hr => (mem_tied_rows hr).2, hevaluate.trans hadvance, rfl,
      mem_append_right _ mem_cons_self, ⟨rfl, rfl⟩, le_refl _,
      fun image => ⟨_, sample_matches (sampleId n) image⟩, ?_, rfl⟩
    intro image rule hmem
    have hlaunch : (normalize (tied n) image).activityId = 2 :=
      activityId_of_work (sampleTerminate (sampleId n)) hmem
    cases hlaunch
  · obtain ⟨q, hrun, hcursor, _, _, _, _, hclock, hevaluated⟩ := sample_run (sampleId 1)
    refine ⟨_, sampleLaunch (sampleId 0), q, _,
      sample_initial fun r hr => by rw [mem_singleton.mp hr]; rfl, hrun, hcursor, hclock,
      ⟨rfl, rfl⟩, ?_, fun image => ⟨_, sample_matches (sampleId 0) image⟩, ?_⟩
    · rw [place_sample rfl rfl, ← rowPlace, place_sample rfl rfl]
      exact Prod.Lex.toLex_le_toLex.mpr (Or.inr ⟨rfl, Nat.zero_le 1⟩)
    · intro image rule hmem
      rw [hevaluated] at hmem
      have hid : sampleId 0 = sampleId 1 :=
        congrArg (fun pair : Pair => pair.1.eventId) (mem_singleton.mp hmem)
      exact absurd hid (by decide +kernel)

end CyberGuard.Detect
