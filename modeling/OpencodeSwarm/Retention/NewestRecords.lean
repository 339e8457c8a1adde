/-
  OpencodeSwarm.Retention.NewestRecords

  Capped appends to one file, each of which may crash between its steps or within
  the append itself.  The records of the file stay the newest ones as long as an
  append finds the last line ended and a compaction keeps a record.
-/
import OpencodeSwarm.Lib.Transition
import OpencodeSwarm.Retention.CappedJsonl

namespace OpencodeSwarm

open Js TextLines Transition

/-! ## Appends and their crashes -/

/-- Where an append stops: before the rename, before the append to the file, within it, or
    behind it. -/
inductive AppendStop where
  | beforeRename
  | beforeAppend
  | torn (length : Nat)
  | written
  | returned
  deriving DecidableEq

/-- A call of `appendCappedJsonl`, up to where it stops. -/
structure StreamCall where
  line : JsString
  stop : AppendStop

/-- The contents of the file behind the steps of a call. -/
def StreamCall.states (opts : CappedJsonlOptions) (content : JsString) (call : StreamCall) :
    List JsString :=
  match call.stop with
  | .beforeRename => []
  | .beforeAppend => [capped opts content call.line]
  | .torn length =>
    [capped opts content call.line,
      capped opts content call.line ++ (trim call.line).take length]
  | .written | .returned =>
    [capped opts content call.line, appendAndCap opts content call.line]

/-- The file, the lines that it began with and the records that were written out since,
    and whether what comes behind its last newline is the last of them. -/
structure StreamWatch where
  content : JsString
  history : List JsString
  tailKnown : Bool
  completed : Bool

def StreamWatch.start (initial : JsString) : StreamWatch where
  content := initial
  history := wholeLines initial
  tailKnown := true
  completed := false

/-- The history behind a call. -/
def StreamCall.recorded (call : StreamCall) (history : List JsString) : List JsString :=
  match call.stop with
  | .beforeRename | .beforeAppend => history
  | .torn length =>
    if (trim call.line).length ≤ length then history ++ [trim call.line] else history
  | .written | .returned => history ++ [trim call.line]

/-- An append, up to where it stops. -/
def streamStep (opts : CappedJsonlOptions) (watch : StreamWatch) (call : StreamCall) :
    StreamWatch where
  content := (call.states opts watch.content).getLastD watch.content
  history := call.recorded watch.history
  tailKnown :=
    match call.stop with
    | .beforeRename => watch.tailKnown
    | .beforeAppend => watch.tailKnown || decide (0 < droppedCount opts watch.content call.line)
    | .torn length =>
      if length = 0 then
        watch.tailKnown || decide (0 < droppedCount opts watch.content call.line)
      else decide ((trim call.line).length ≤ length)
    | .written | .returned => true
  completed := watch.completed || decide (call.stop = .returned)

/-- The call writes to the end of the file. -/
def AppendStop.writes : AppendStop → Bool
  | .beforeRename | .beforeAppend => false
  | .torn length => decide (0 < length)
  | .written | .returned => true

/-- Where lines are dropped, an unknown last line is none of those that the caps leave
    room for, and they leave room for one of a file with records; where none are, the
    append finds the last line ended. -/
def AppendsClean (opts : CappedJsonlOptions) (watch : StreamWatch) (call : StreamCall) : Prop :=
  if 0 < droppedCount opts watch.content call.line then
    call.stop ≠ .beforeRename →
      (watch.tailKnown = true ∨ tornLine watch.content = []
          ∨ leavesRoom opts (wholeLines watch.content) (trim call.line) = false)
        ∧ (wholeRecords watch.content ≠ [] →
          leavesRoom opts (wholeLines watch.content) (trim call.line) = true)
  else call.stop.writes = true → tornLine watch.content = []

/-- A completed append leaves the newest records with its own at the end, no state has more
    of them than the cap, and none loses all of them. -/
def KeepsNewest (opts : CappedJsonlOptions) (watch : StreamWatch) (call : StreamCall) : Prop :=
  (call.stop = .returned →
      wholeRecords (streamStep opts watch call).content <:+ (streamStep opts watch call).history
        ∧ (wholeRecords (streamStep opts watch call).content).getLast? = some (trim call.line))
    ∧ (∀ content ∈ call.states opts watch.content,
      (watch.completed = true → (wholeRecords content).length ≤ opts.maxEntries)
        ∧ (wholeRecords watch.content ≠ [] → wholeRecords content ≠ []))
    ∧ ((streamStep opts watch call).completed = true →
      (wholeRecords (streamStep opts watch call).content).length ≤ opts.maxEntries)

/-- A line of a record: no newline in it, and not blank. -/
def SingleLine (line : JsString) : Prop := newline ∉ line ∧ trim line ≠ []

theorem SingleLine.tidy {line : JsString} (h : SingleLine line) : TidyLine (trim line) :=
  ⟨fun hmem => h.1 (mem_of_mem_trim hmem), trim_trim line, h.2⟩

/-! ## One call -/

/-- The lines of the file are the newest of the history, with the last one as far as it
    is known. -/
structure StreamWatch.Sound (opts : CappedJsonlOptions) (watch : StreamWatch) : Prop where
  known : watch.tailKnown = true → wholeLines watch.content <:+ watch.history
  unknown : watch.tailKnown = false → wholeRecords watch.content <:+ watch.history
  bounded : watch.completed = true → (wholeRecords watch.content).length ≤ opts.maxEntries

section Call

variable {opts : CappedJsonlOptions} {watch : StreamWatch} {call : StreamCall}

theorem StreamWatch.Sound.wholeLines_suffix (h : watch.Sound opts)
    (htail : watch.tailKnown = true ∨ tornLine watch.content = []) :
    wholeLines watch.content <:+ watch.history := by
  cases hknown : watch.tailKnown with
  | true => exact h.known hknown
  | false =>
    rcases htail with htrue | htorn
    · rw [hknown] at htrue
      cases htrue
    · rw [wholeLines_of_tornLine htorn]
      exact h.unknown hknown

/-- The file in front of the append: its last line is ended, and it has newest lines of the
    history with room for one more. -/
structure ReadyToAppend (opts : CappedJsonlOptions) (watch : StreamWatch) (ready : JsString) :
    Prop where
  ended : tornLine ready = []
  newest : wholeRecords ready <:+ watch.history
  room : (wholeRecords ready).length + 1 ≤ opts.maxEntries
  kept : wholeRecords watch.content ≠ [] → wholeRecords ready ≠ []

/-- A compaction that takes over no unknown line makes the file ready. -/
theorem ready_of_dropped (hentries : 1 ≤ opts.maxEntries) (h : watch.Sound opts)
    (hdropped : 0 < droppedCount opts watch.content call.line)
    (htail : watch.tailKnown = true ∨ tornLine watch.content = []
      ∨ leavesRoom opts (wholeLines watch.content) (trim call.line) = false)
    (hkept : wholeRecords watch.content ≠ [] →
      leavesRoom opts (wholeLines watch.content) (trim call.line) = true) :
    ReadyToAppend opts watch (capped opts watch.content call.line) := by
  obtain ⟨hsuffix, hlength, -, hempty⟩ := compactedLines_spec hentries watch.content call.line
  have htidy : ∀ line ∈ compactedLines opts watch.content call.line, TidyLine line :=
    fun line hline => tidyLine_of_mem_wholeLines (hsuffix.subset hline)
  rw [capped, if_pos hdropped]
  have hrecords := wholeRecords_compactedText htidy
  refine ⟨tornLine_compactedText htidy, ?_, ?_, ?_⟩
  · rw [hrecords]
    rcases htail with hknown | htorn | hfull
    · exact hsuffix.trans (h.wholeLines_suffix (Or.inl hknown))
    · exact hsuffix.trans (h.wholeLines_suffix (Or.inr htorn))
    · rw [hempty.mpr hfull]
      exact List.nil_suffix
  · rw [hrecords]
    exact hlength
  · rw [hrecords]
    intro hrecorded hnone
    rw [hempty.mp hnone] at hkept
    cases hkept hrecorded

/-- A file whose last line is ended is ready when nothing is dropped. -/
theorem ready_of_not_dropped (hentries : 1 ≤ opts.maxEntries) (h : watch.Sound opts)
    (hdropped : ¬ 0 < droppedCount opts watch.content call.line)
    (htorn : tornLine watch.content = []) :
    ReadyToAppend opts watch (capped opts watch.content call.line) := by
  obtain ⟨-, hlength, hall, -⟩ := compactedLines_spec hentries watch.content call.line
  have hnone : droppedCount opts watch.content call.line = 0 := by omega
  rw [hall hnone, wholeLines_of_tornLine htorn] at hlength
  rw [capped, if_neg hdropped]
  refine ⟨htorn, ?_, hlength, id⟩
  rw [← wholeLines_of_tornLine htorn]
  exact h.wholeLines_suffix (Or.inr htorn)

theorem ready_of_writes (hentries : 1 ≤ opts.maxEntries) (h : watch.Sound opts)
    (hclean : AppendsClean opts watch call) (hwrites : call.stop.writes = true) :
    ReadyToAppend opts watch (capped opts watch.content call.line) := by
  unfold AppendsClean at hclean
  by_cases hdropped : 0 < droppedCount opts watch.content call.line
  · rw [if_pos hdropped] at hclean
    have hrename : call.stop ≠ .beforeRename := by
      intro heq
      rw [heq] at hwrites
      cases hwrites
    obtain ⟨htail, hkept⟩ := hclean hrename
    exact ready_of_dropped hentries h hdropped htail hkept
  · rw [if_neg hdropped] at hclean
    exact ready_of_not_dropped hentries h hdropped (hclean hwrites)

theorem ReadyToAppend.append {ready : JsString} (h : ReadyToAppend opts watch ready)
    (hline : SingleLine call.line) :
    wholeRecords (ready ++ trim call.line ++ [newline]) = wholeRecords ready ++ [trim call.line]
      ∧ tornLine (ready ++ trim call.line ++ [newline]) = [] :=
  ⟨wholeRecords_append_record h.ended hline.tidy, tornLine_append_record hline.tidy.1⟩

/-- A call that is behind its append leaves its record at the end. -/
theorem ReadyToAppend.appended (hline : SingleLine call.line)
    (h : ReadyToAppend opts watch (capped opts watch.content call.line)) :
    wholeRecords (appendAndCap opts watch.content call.line) <:+ watch.history ++ [trim call.line]
      ∧ (wholeRecords (appendAndCap opts watch.content call.line)).getLast? = some (trim call.line)
      ∧ (wholeRecords (appendAndCap opts watch.content call.line)).length ≤ opts.maxEntries
      ∧ wholeRecords (appendAndCap opts watch.content call.line) ≠ []
      ∧ tornLine (appendAndCap opts watch.content call.line) = [] := by
  obtain ⟨hrecords, htorn⟩ := h.append hline
  rw [appendAndCap, hrecords]
  refine ⟨List.suffix_append_self_iff.mpr h.newest, List.getLast?_concat, ?_, ?_, htorn⟩
  · rw [List.length_append, List.length_singleton]
    exact h.room
  · exact List.append_ne_nil_of_right_ne_nil _ (List.cons_ne_nil _ _)

/-- The file behind the rename, whether or not there was one. -/
structure Renamed (opts : CappedJsonlOptions) (watch : StreamWatch) (line : JsString) : Prop where
  known : (watch.tailKnown || decide (0 < droppedCount opts watch.content line)) = true →
    wholeLines (capped opts watch.content line) <:+ watch.history
  unknown : (watch.tailKnown || decide (0 < droppedCount opts watch.content line)) = false →
    wholeRecords (capped opts watch.content line) <:+ watch.history
  bounded : watch.completed = true →
    (wholeRecords (capped opts watch.content line)).length ≤ opts.maxEntries
  kept : wholeRecords watch.content ≠ [] → wholeRecords (capped opts watch.content line) ≠ []

theorem ReadyToAppend.renamed (h : ReadyToAppend opts watch (capped opts watch.content call.line)) :
    Renamed opts watch call.line where
  known := fun _ => by
    rw [wholeLines_of_tornLine h.ended]
    exact h.newest
  unknown := fun _ => h.newest
  bounded := fun _ => by
    have hroom := h.room
    omega
  kept := h.kept

theorem renamed_of_clean (hentries : 1 ≤ opts.maxEntries) (h : watch.Sound opts)
    (hclean : AppendsClean opts watch call) (hrename : call.stop ≠ .beforeRename) :
    Renamed opts watch call.line := by
  by_cases hdropped : 0 < droppedCount opts watch.content call.line
  · rw [AppendsClean, if_pos hdropped] at hclean
    obtain ⟨htail, hkept⟩ := hclean hrename
    exact (ready_of_dropped hentries h hdropped htail hkept).renamed
  · -- no rename: the file is as it was
    have hsame : capped opts watch.content call.line = watch.content := if_neg hdropped
    have hflag : (watch.tailKnown || decide (0 < droppedCount opts watch.content call.line))
        = watch.tailKnown := by
      rw [decide_eq_false hdropped, Bool.or_false]
    refine ⟨?_, ?_, ?_, ?_⟩
    · rw [hflag, hsame]
      exact h.known
    · rw [hflag, hsame]
      exact h.unknown
    · rw [hsame]
      exact h.bounded
    · rw [hsame]
      exact id

variable {next : StreamWatch}

/-- A call that stops in front of the append, or right at its start. -/
theorem Renamed.sound (h : Renamed opts watch call.line)
    (hcontent : next.content = capped opts watch.content call.line)
    (hhistory : next.history = watch.history)
    (htail : next.tailKnown
      = (watch.tailKnown || decide (0 < droppedCount opts watch.content call.line)))
    (hcompleted : next.completed = watch.completed) : next.Sound opts where
  known := by
    rw [htail, hcontent, hhistory]
    exact h.known
  unknown := by
    rw [htail, hcontent, hhistory]
    exact h.unknown
  bounded := by
    rw [hcompleted, hcontent]
    exact h.bounded

theorem ReadyToAppend.tornSound {length : Nat} (hline : SingleLine call.line)
    (h : ReadyToAppend opts watch (capped opts watch.content call.line))
    (hcontent : next.content
      = capped opts watch.content call.line ++ (trim call.line).take length)
    (hhistory : next.history
      = if (trim call.line).length ≤ length then watch.history ++ [trim call.line]
        else watch.history) (htail : next.tailKnown = decide ((trim call.line).length ≤ length)) :
    next.Sound opts := by
  have hfree : newline ∉ (trim call.line).take length :=
    fun hmem => hline.tidy.1 (List.mem_of_mem_take hmem)
  have hrecords : wholeRecords next.content
      = wholeRecords (capped opts watch.content call.line) := by
    rw [hcontent, wholeRecords_append hfree]
  refine ⟨fun hknown => ?_, fun hunknown => ?_, fun _ => ?_⟩
  · -- the whole text of the record, without its newline
    rw [htail, decide_eq_true_eq] at hknown
    rw [List.take_of_length_le hknown] at hcontent
    rw [hhistory, if_pos hknown, hcontent, wholeLines_eq, wholeRecords_append hline.tidy.1,
      tornLine_append h.ended hline.tidy.1, hline.tidy.2.1, if_neg hline.tidy.2.2]
    exact List.suffix_append_self_iff.mpr h.newest
  · rw [htail, decide_eq_false_iff_not] at hunknown
    rw [hhistory, if_neg hunknown, hrecords]
    exact h.newest
  · rw [hrecords]
    have hroom := h.room
    omega

theorem StreamWatch.Sound.step (hentries : 1 ≤ opts.maxEntries) (h : watch.Sound opts)
    (hline : SingleLine call.line) (hclean : AppendsClean opts watch call) :
    (streamStep opts watch call).Sound opts := by
  obtain ⟨line, stop⟩ := call
  cases stop with
  | beforeRename =>
    refine ⟨h.known, h.unknown, ?_⟩
    intro hcompleted
    exact h.bounded ((Bool.or_eq_true_iff.mp hcompleted).resolve_right Bool.false_ne_true)
  | beforeAppend =>
    exact (renamed_of_clean hentries h hclean (fun heq => nomatch heq)).sound rfl rfl rfl
      (Bool.or_false _)
  | torn length =>
    cases length with
    | zero =>
      have hnone : ¬ (trim line).length ≤ 0 :=
        fun hle => hline.2 (List.length_eq_zero_iff.mp (Nat.le_zero.mp hle))
      exact (renamed_of_clean hentries h hclean (fun heq => nomatch heq)).sound
        (List.append_nil _) (if_neg hnone) rfl (Bool.or_false _)
    | succ length =>
      exact (ready_of_writes hentries h hclean (decide_eq_true (Nat.succ_pos length))).tornSound
        hline rfl rfl rfl
  | written | returned =>
    obtain ⟨hnewest, -, hlength, -, htorn⟩ :=
      (ready_of_writes hentries h hclean rfl).appended hline
    refine ⟨fun _ => ?_, fun hfalse => (nomatch hfalse), fun _ => hlength⟩
    exact (wholeLines_of_tornLine htorn).symm ▸ hnewest

theorem StreamWatch.Sound.keepsNewest (hentries : 1 ≤ opts.maxEntries) (h : watch.Sound opts)
    (hline : SingleLine call.line) (hclean : AppendsClean opts watch call) :
    KeepsNewest opts watch call := by
  have hsound := h.step hentries hline hclean
  obtain ⟨line, stop⟩ := call
  refine ⟨?_, ?_, hsound.bounded⟩
  · rintro rfl
    obtain ⟨hnewest, hlast, -⟩ := (ready_of_writes hentries h hclean rfl).appended hline
    exact ⟨hnewest, hlast⟩
  · cases stop with
    | beforeRename => exact fun _ hmem => nomatch hmem
    | beforeAppend =>
      intro content hcontent
      rw [List.mem_singleton.mp hcontent]
      have hrenamed := renamed_of_clean hentries h hclean (fun heq => nomatch heq)
      exact ⟨hrenamed.bounded, hrenamed.kept⟩
    | torn length =>
      have hrenamed := renamed_of_clean hentries h hclean (fun heq => nomatch heq)
      have hfree : newline ∉ (trim line).take length :=
        fun hmem => hline.tidy.1 (List.mem_of_mem_take hmem)
      intro content hcontent
      rcases List.mem_cons.mp hcontent with rfl | hlast
      · exact ⟨hrenamed.bounded, hrenamed.kept⟩
      · rw [List.mem_singleton.mp hlast, wholeRecords_append hfree]
        exact ⟨hrenamed.bounded, hrenamed.kept⟩
    | written | returned =>
      have hrenamed := renamed_of_clean hentries h hclean (fun heq => nomatch heq)
      obtain ⟨-, -, hlength, hne, -⟩ := (ready_of_writes hentries h hclean rfl).appended hline
      intro content hcontent
      rcases List.mem_cons.mp hcontent with rfl | hlast
      · exact ⟨hrenamed.bounded, hrenamed.kept⟩
      · rw [List.mem_singleton.mp hlast]
        exact ⟨fun _ => hlength, fun _ => hne⟩

end Call

/-! ## Runs -/

theorem sound_start (opts : CappedJsonlOptions) (initial : JsString) :
    (StreamWatch.start initial).Sound opts where
  known := fun _ => List.suffix_rfl
  unknown := fun h => nomatch h
  bounded := fun h => nomatch h

/-- In every run of clean appends, crashes included, the file keeps the newest records. -/
theorem keepsNewest_of_run (opts : CappedJsonlOptions) (hentries : 1 ≤ opts.maxEntries)
    (initial : JsString) (calls : List StreamCall) (hlines : ∀ call ∈ calls, SingleLine call.line)
    (hclean : Along (streamStep opts) (AppendsClean opts) (StreamWatch.start initial) calls) :
    Along (streamStep opts) (KeepsNewest opts) (StreamWatch.start initial) calls := by
  have hsound := sound_start opts initial
  generalize StreamWatch.start initial = watch at hsound hclean
  induction calls generalizing watch with
  | nil => exact trivial
  | cons call rest ih =>
    have hline := hlines call List.mem_cons_self
    refine ⟨hsound.keepsNewest hentries hline hclean.1, ?_⟩
    exact ih (fun other hother => hlines other (List.mem_cons_of_mem _ hother)) _
      (hsound.step hentries hline hclean.1) hclean.2

/-- Three records under a cap of two; the second crashes in front of its newline. -/
def threeRecords : List StreamCall :=
  [{ line := js "{}", stop := .returned }, { line := js "[]", stop := .torn 2 },
    { line := js "{}", stop := .returned }]

theorem keepsNewest_threeRecords :
    Along (streamStep { maxEntries := 2, maxBytes := none })
      (KeepsNewest { maxEntries := 2, maxBytes := none }) (StreamWatch.start []) threeRecords := by
  have hlines : ∀ call ∈ threeRecords, SingleLine call.line := by
    intro call hcall
    have hcases : call.line = js "{}" ∨ call.line = js "[]" := by
      rcases List.mem_cons.mp hcall with rfl | hrest
      · exact Or.inl rfl
      rcases List.mem_cons.mp hrest with rfl | hlast
      · exact Or.inr rfl
      · rw [List.mem_singleton.mp hlast]
        exact Or.inl rfl
    rcases hcases with heq | heq
    · rw [heq]
      exact ⟨by decide +kernel, by decide +kernel⟩
    · rw [heq]
      exact ⟨by decide +kernel, by decide +kernel⟩
  have hclean : Along (streamStep { maxEntries := 2, maxBytes := none })
      (AppendsClean { maxEntries := 2, maxBytes := none }) (StreamWatch.start []) threeRecords :=
    ⟨fun _ => by decide +kernel, fun _ => by decide +kernel,
      fun _ => ⟨Or.inl rfl, fun _ => by decide +kernel⟩, trivial⟩
  exact keepsNewest_of_run { maxEntries := 2, maxBytes := none } (by decide) [] threeRecords hlines
    hclean

/-- A crash within an append leaves part of a record, and the next record is glued to it. -/
theorem not_keepsNewest_tornTail :
    ¬ ∀ (opts : CappedJsonlOptions) (initial : JsString) (calls : List StreamCall),
      1 ≤ opts.maxEntries → (∀ call ∈ calls, SingleLine call.line) →
        Along (streamStep opts) (KeepsNewest opts) (StreamWatch.start initial) calls := by
  intro hall
  have hlines : ∀ call ∈ [({ line := js "{}", stop := .torn 1 } : StreamCall),
      { line := js "{}", stop := .returned }], SingleLine call.line := by
    intro call hcall
    have hline : call.line = js "{}" := by
      rcases List.mem_cons.mp hcall with rfl | hlast
      · rfl
      · rw [List.mem_singleton.mp hlast]
    rw [hline]
    exact ⟨by decide +kernel, by decide +kernel⟩
  obtain ⟨-, ⟨hreturned, -⟩, -⟩ := hall { maxEntries := 9, maxBytes := none } [] _
    (by decide) hlines
  have hlast := (hreturned rfl).2
  have hglued : ¬ (wholeRecords (streamStep { maxEntries := 9, maxBytes := none }
      (streamStep { maxEntries := 9, maxBytes := none } (StreamWatch.start [])
        { line := js "{}", stop := .torn 1 })
      { line := js "{}", stop := .returned }).content).getLast? = some (trim (js "{}")) := by
    decide +kernel
  exact hglued hlast

end OpencodeSwarm
