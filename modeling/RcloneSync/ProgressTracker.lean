/-
RcloneSync/ProgressTracker.lean

The stall watchdog of a running rclone process (`_LogProgressTracker`).  New log output moves
the deadline only if the tracker sees progress in it: another transfer line than the last one,
another counter line than the last one, or a log line that is not among the 64 remembered ones.

A block of lines that is fed twice in a row shows progress the second time exactly if two of
its transfer lines differ, or two of its counter lines, or if it pushes out a log line that was
remembered before (`second_feed`).  rclone's own statistics have two transfer lines, one for
the bytes and one for the files.
-/
import Mathlib.Data.Finset.Card
import RcloneSync.RcloneArgs
import RcloneSync.Regex

namespace RcloneSync

open Py Regex

/-! ### Log lines -/

def isTextOf (excluded : List Char) (c : Char) : Bool := !excluded.contains c

def spaces : Pattern := .star (.one isSpace)

def digits (n : Nat) : Pattern := Pattern.times n (.one isDigit)

/-- A character, in upper or lower case. -/
def oneOf (text : String) : Pattern := .one fun c => text.toList.any fun d => reFold c = reFold d

/-- `_STATS_RE`. -/
def statsPattern : Pattern :=
  let item := Pattern.lazyPlus (.one (isTextOf [',', '\n']))
  sequence
    [literal id "Transferred:", spaces, .group 1 item,
     .opt (sequence [spaces, literal id "/", spaces, .group 2 item]),
     .opt (sequence [literal id ",", spaces,
       .alt (sequence [.group 3 (.plus (.one fun c => isDigit c || c = '.')), literal id "%"])
         (literal id "-")]),
     .opt (sequence [literal id ",", spaces, .group 4 (.seq item (literal id "/s"))]),
     .opt (sequence [literal id ",", spaces, literal id "ETA", spaces,
       .group 5 (.plus (.one fun c => !isSpace c))]),
     spaces, .atEnd]

/-- `_LOG_PREFIX_RE`. -/
def logStart : Pattern :=
  .seq
    (.opt (sequence
      [digits 4, oneOf "/.-", digits 2, oneOf "/.-", digits 2, oneOf " T", digits 2, oneOf ":",
       digits 2, oneOf ":", digits 2, .opt (.seq (oneOf ".,") (.plus (.one isDigit))),
       .plus (.one isSpace)]))
    (.opt (sequence
      [choice (["DEBUG", "INFO", "NOTICE", "WARNING", "ERROR", "CRITICAL"].map (literal reFold)),
       spaces, oneOf ":", spaces]))

/-- `_COUNTER_RE`. -/
def counterPattern : Pattern :=
  let number := Pattern.plus (.one fun c => isDigit c || c = ',')
  sequence
    [.boundary isWord,
     .group 1 (choice (["Checks", "Deleted", "Renamed", "Listed", "Errors", "Transferred"].map
       (literal reFold))),
     spaces, oneOf ":", spaces, .group 2 number,
     .opt (sequence [spaces, oneOf "/", spaces, .group 3 number])]

/-- The kinds of statistics, each with one place in the memory of the tracker. -/
inductive StatKind
  | transferred
  | counters
  deriving DecidableEq, Repr

/-- What a line says about the progress. -/
inductive Marker
  | structured (kind : StatKind) (value : List String)
  | log (line : String)
  deriving DecidableEq, Repr

/-- `_progress_marker`. -/
def progressMarker (rawLine : String) : Option Marker :=
  let line := strip (removeStart logStart (strip rawLine))
  if line = "" then none
  else match search statsPattern line with
    | some found =>
      some (.structured .transferred
        ([1, 2, 3].map fun n => casefold (strip ((found.group n).getD ""))))
    | none =>
      let items := (findAll counterPattern line).map fun found =>
        join "|" [casefold ((found.group 1).getD ""), replace "," "" ((found.group 2).getD ""),
          replace "," "" ((found.group 3).getD "")]
      if items ≠ [] then some (.structured .counters items)
      else
        let folded := casefold line
        if startsWith folded "elapsed time:" || startsWith folded "eta " then none
        else some (.log line)

/-- `re.split(r"[\r\n]+", text)`; `skipping` tells that the last character was a break, and
`cur` is the current piece, reversed. -/
def splitBreaks (skipping : Bool) (cur : List Char) : List Char → List String
  | [] => [String.ofList cur.reverse]
  | c :: cs =>
    if c = '\r' || c = '\n' then
      if skipping then splitBreaks true [] cs
      else String.ofList cur.reverse :: splitBreaks true [] cs
    else splitBreaks false (c :: cur) cs

/-! ### A bounded memory -/

section Memory

variable {α : Type*} [DecidableEq α] {cap : Nat}

/-- A new element is appended, and the oldest ones beyond the capacity are dropped. -/
def remember (cap : Nat) (mem : List α) (x : α) : List α :=
  if x ∈ mem then mem else (mem ++ [x]).drop (mem.length + 1 - cap)

/-- What became of `mem` while the elements of `xs` up to `seen` came along: the rest of it,
and then the new ones, none of which is dropped. -/
def Remembered (mem xs seen mem' : List α) : Prop :=
  ∃ old new, mem' = old ++ new ∧ old ⊆ mem ∧ new.Nodup ∧ new ⊆ xs ∧
    ∀ x ∈ seen, x ∈ mem ∨ x ∈ new

theorem remembered_step {mem xs seen mem' : List α} {x : α} (h : Remembered mem xs seen mem')
    (hx : x ∈ xs) (hcap : xs.toFinset.card ≤ cap) :
    Remembered mem xs (seen ++ [x]) (remember cap mem' x) := by
  obtain ⟨old, new, rfl, hold, hnodup, hnew, hseen⟩ := h
  unfold remember
  split_ifs with hmem
  · refine ⟨old, new, rfl, hold, hnodup, hnew, ?_⟩
    intro y hy
    rcases List.mem_append.mp hy with hy | hy
    · exact hseen y hy
    · obtain rfl := List.mem_singleton.mp hy
      exact (List.mem_append.mp hmem).imp_left (fun hy => hold hy)
  · have hfresh : (new ++ [x]).Nodup := by
      refine List.nodup_append.mpr ⟨hnodup, List.nodup_singleton x, ?_⟩
      rintro a ha b hb rfl
      exact hmem (List.mem_append_right _ (List.mem_singleton.mp hb ▸ ha))
    have hsub : new ++ [x] ⊆ xs := by
      intro y hy
      rcases List.mem_append.mp hy with hy | hy
      · exact hnew hy
      · exact List.mem_singleton.mp hy ▸ hx
    have hlen : new.length + 1 ≤ cap := by
      have hcard : (new ++ [x]).toFinset.card ≤ xs.toFinset.card :=
        Finset.card_le_card fun y hy => List.mem_toFinset.mpr (hsub (List.mem_toFinset.mp hy))
      rw [List.toFinset_card_of_nodup hfresh, List.length_append] at hcard
      exact hcard.trans hcap
    -- so only old elements are dropped
    have hdrop : (old ++ new).length + 1 - cap ≤ old.length := by
      rw [List.length_append]
      omega
    refine ⟨old.drop ((old ++ new).length + 1 - cap), new ++ [x], ?_, ?_, hfresh, hsub, ?_⟩
    · rw [List.append_assoc, List.drop_append_of_le_length hdrop]
    · exact fun y hy => hold (List.mem_of_mem_drop hy)
    · intro y hy
      rcases List.mem_append.mp hy with hy | hy
      · exact (hseen y hy).imp_right (List.mem_append_left _)
      · exact Or.inr (List.mem_append_right _ hy)

theorem remembered_run {mem xs : List α} (hcap : xs.toFinset.card ≤ cap) {ys : List α} :
    ∀ {seen mem' : List α}, Remembered mem xs seen mem' → ys ⊆ xs →
      Remembered mem xs (seen ++ ys) (ys.foldl (remember cap) mem') := by
  induction ys with
  | nil =>
    intro seen mem' h _
    rwa [List.append_nil]
  | cons y ys ih =>
    intro seen mem' h hsub
    have hstep := remembered_step h (hsub List.mem_cons_self) hcap
    have hrest := ih hstep fun z hz => hsub (List.mem_cons_of_mem _ hz)
    rwa [List.append_assoc] at hrest

/-- **What a memory forgets.**  Of at most `cap` different elements only those can be forgotten
again that were remembered before the first of them came. -/
theorem mem_foldl_remember {mem xs : List α} (hcap : xs.toFinset.card ≤ cap) {x : α} (hx : x ∈ xs)
    (hmem : x ∉ mem) : x ∈ xs.foldl (remember cap) mem := by
  have hstart : Remembered mem xs [] mem := by
    refine ⟨mem, [], (List.append_nil mem).symm, fun y hy => hy, List.nodup_nil, ?_, ?_⟩
    · exact List.nil_subset xs
    · intro y hy
      cases hy
  obtain ⟨old, new, heq, -, -, -, hseen⟩ := remembered_run hcap hstart (fun y hy => hy)
  rw [heq]
  exact List.mem_append_right _ ((hseen x hx).resolve_left hmem)

end Memory

/-! ### The tracker -/

/-- The number of log lines that are remembered. -/
def recentLimit : Nat := 64

/-- `_LogProgressTracker`. -/
structure Tracker where
  partialText : String
  structured : StatKind → Option (List String)
  recentLogs : List String

def Tracker.fresh : Tracker := ⟨"", fun _ => none, []⟩

/-- A marker that is no progress. -/
def Tracker.Knows (t : Tracker) : Marker → Prop
  | .structured kind value => t.structured kind = some value
  | .log line => line ∈ t.recentLogs

instance (t : Tracker) (m : Marker) : Decidable (t.Knows m) :=
  match m with
  | .structured kind value => inferInstanceAs (Decidable (t.structured kind = some value))
  | .log line => inferInstanceAs (Decidable (line ∈ t.recentLogs))

/-- The memory after a marker. -/
def Tracker.note (t : Tracker) : Marker → Tracker
  | .structured kind value => { t with structured := Function.update t.structured kind (some value) }
  | .log line => { t with recentLogs := remember recentLimit t.recentLogs line }

/-- The loop of `feed` over the markers: the memory afterwards, and whether one of them was
progress. -/
def Tracker.noteAll (t : Tracker) : List Marker → Tracker × Bool
  | [] => (t, false)
  | m :: ms =>
    if t.Knows m then t.noteAll ms
    else (((t.note m).noteAll ms).1, true)

/-- The pieces of the text in a feed, and the piece that is kept for the next one. -/
def feedPieces (text : String) : List String × String :=
  let pieces := splitBreaks false [] text.toList
  if text ≠ "" && !(endsWith text "\r" || endsWith text "\n") then
    (pieces.dropLast, pieces.getLast?.getD "")
  else (pieces, "")

def Tracker.feed (t : Tracker) (chunk : String) : Tracker × Bool :=
  let pieces := feedPieces (t.partialText ++ chunk)
  { t with partialText := pieces.2 }.noteAll (pieces.1.filterMap progressMarker)

/-! ### What a feed remembers -/

/-- The log lines among the markers. -/
def logLines (ms : List Marker) : List String :=
  ms.filterMap fun m =>
    match m with
    | .log line => some line
    | .structured _ _ => none

theorem mem_logLines {ms : List Marker} {line : String} :
    line ∈ logLines ms ↔ Marker.log line ∈ ms := by
  unfold logLines
  rw [List.mem_filterMap]
  constructor
  · rintro ⟨m, hm, hline⟩
    cases m with
    | log l => exact Option.some.inj hline ▸ hm
    | structured kind value => cases hline
  · exact fun h => ⟨_, h, rfl⟩

/-- The lines of each kind of statistics agree. -/
def Uniform (ms : List Marker) : Prop :=
  ∀ kind value value', Marker.structured kind value ∈ ms → Marker.structured kind value' ∈ ms →
    value = value'

/-- A known marker leaves the memory as it is. -/
theorem Tracker.note_of_knows {t : Tracker} {m : Marker} (h : t.Knows m) : t.note m = t := by
  cases m with
  | structured kind value =>
    have h : t.structured kind = some value := h
    unfold Tracker.note
    dsimp only
    rw [← h, Function.update_eq_self]
  | log line =>
    have h : line ∈ t.recentLogs := h
    unfold Tracker.note
    dsimp only
    rw [remember, if_pos h]

theorem Tracker.noteAll_fst (t : Tracker) (ms : List Marker) :
    (t.noteAll ms).1 = ms.foldl Tracker.note t := by
  induction ms generalizing t with
  | nil => rfl
  | cons m ms ih =>
    unfold Tracker.noteAll
    split_ifs with hknown
    · rw [ih, List.foldl_cons, Tracker.note_of_knows hknown]
    · exact ih _

/-- Markers that are all known are no progress, and change nothing. -/
theorem Tracker.noteAll_idle {t : Tracker} {ms : List Marker} :
    (t.noteAll ms).2 = false ↔ ∀ m ∈ ms, t.Knows m := by
  induction ms with
  | nil =>
    constructor
    · intro _ m hm
      cases hm
    · exact fun _ => rfl
  | cons m ms ih =>
    unfold Tracker.noteAll
    split_ifs with hknown
    · rw [ih, List.forall_mem_cons, and_iff_right hknown]
    · constructor
      · intro h
        cases h
      · exact fun h => absurd (h m List.mem_cons_self) hknown

theorem foldl_note_recentLogs (t : Tracker) (ms : List Marker) :
    (ms.foldl Tracker.note t).recentLogs
      = (logLines ms).foldl (remember recentLimit) t.recentLogs := by
  induction ms generalizing t with
  | nil => rfl
  | cons m ms ih =>
    rw [List.foldl_cons, ih]
    cases m with
    | structured kind value => rfl
    | log line => rfl

/-- What is remembered of a kind is the last line of it. -/
theorem foldl_note_structured (t : Tracker) {ms : List Marker} {kind : StatKind}
    {value : List String} (h : Marker.structured kind value ∈ ms) :
    ∃ last, Marker.structured kind last ∈ ms ∧
      (ms.foldl Tracker.note t).structured kind = some last := by
  induction ms using List.reverseRecOn with
  | nil => cases h
  | append_singleton ms m ih =>
    rw [List.foldl_append, List.foldl_cons, List.foldl_nil]
    cases m with
    | log line =>
      have h : Marker.structured kind value ∈ ms := by simpa using h
      obtain ⟨last, hlast, heq⟩ := ih h
      exact ⟨last, List.mem_append_left _ hlast, heq⟩
    | structured kind' value' =>
      by_cases hkind : kind = kind'
      · subst hkind
        exact ⟨value', List.mem_append_right _ List.mem_cons_self, Function.update_self _ _ _⟩
      · have h : Marker.structured kind value ∈ ms := by simpa [hkind] using h
        obtain ⟨last, hlast, heq⟩ := ih h
        refine ⟨last, List.mem_append_left _ hlast, ?_⟩
        exact (Function.update_of_ne hkind _ _).trans heq

/-- After a list of markers the memory knows them all if each kind of statistics has one value
in it, and if no log line was forgotten again. -/
theorem knows_foldl_note (t : Tracker) (ms : List Marker) :
    (∀ m ∈ ms, (ms.foldl Tracker.note t).Knows m) ↔
      Uniform ms ∧ ∀ line ∈ logLines ms,
        line ∈ (logLines ms).foldl (remember recentLimit) t.recentLogs := by
  rw [← foldl_note_recentLogs]
  constructor
  · intro hknown
    refine ⟨?_, ?_⟩
    · intro kind value value' h h'
      have heq : (ms.foldl Tracker.note t).structured kind = some value := hknown _ h
      have heq' : (ms.foldl Tracker.note t).structured kind = some value' := hknown _ h'
      exact Option.some.inj (heq.symm.trans heq')
    · intro line hline
      exact hknown _ (mem_logLines.mp hline)
  · rintro ⟨huniform, hlogs⟩ m hm
    cases m with
    | structured kind value =>
      obtain ⟨last, hlast, heq⟩ := foldl_note_structured t hm
      rw [← huniform kind last value hlast hm]
      exact heq
    | log line => exact hlogs line (mem_logLines.mpr hm)

/-! ### Main result -/

/-- A block of complete lines. -/
def Complete (chunk : String) : Prop :=
  chunk = "" ∨ endsWith chunk "\r" = true ∨ endsWith chunk "\n" = true

/-- The markers of a block of complete lines. -/
def markersOf (chunk : String) : List Marker :=
  (splitBreaks false [] chunk.toList).filterMap progressMarker

theorem Tracker.feed_complete {t : Tracker} {chunk : String} (ht : t.partialText = "")
    (hchunk : Complete chunk) : t.feed chunk = t.noteAll (markersOf chunk) := by
  have hpieces : feedPieces chunk = (splitBreaks false [] chunk.toList, "") := by
    unfold feedPieces
    rcases hchunk with rfl | hend | hend
    · rfl
    · rw [hend]
      simp
    · rw [hend]
      simp
  obtain ⟨text, structured, recentLogs⟩ := t
  obtain rfl : text = "" := ht
  unfold Tracker.feed
  dsimp only
  rw [String.empty_append, hpieces]
  rfl

theorem Tracker.note_partialText (t : Tracker) (m : Marker) :
    (t.note m).partialText = t.partialText := by
  cases m with
  | structured kind value => rfl
  | log line => rfl

theorem Tracker.noteAll_partialText (t : Tracker) (ms : List Marker) :
    (t.noteAll ms).1.partialText = t.partialText := by
  rw [Tracker.noteAll_fst]
  induction ms generalizing t with
  | nil => rfl
  | cons m ms ih => exact (ih (t.note m)).trans (t.note_partialText m)

/-- A feed that shows no progress changes nothing, so a further one shows none either. -/
theorem Tracker.noteAll_of_idle {t : Tracker} {ms : List Marker} (h : (t.noteAll ms).2 = false) :
    t.noteAll ms = (t, false) := by
  induction ms with
  | nil => rfl
  | cons m ms ih =>
    unfold Tracker.noteAll at h ⊢
    split_ifs at h ⊢ with hknown
    · exact ih h

/-- **Repeated statistics.**  A block of lines that is fed again at once shows no progress
exactly if the lines of each kind of statistics in it agree, and it pushes out none of its log
lines that were remembered before.  Then no further feed of it shows progress. -/
theorem second_feed {t : Tracker} {chunk : String} (ht : t.partialText = "")
    (hchunk : Complete chunk)
    (hlines : (logLines (markersOf chunk)).toFinset.card ≤ recentLimit) :
    (((t.feed chunk).1.feed chunk).2 = false ↔
      Uniform (markersOf chunk) ∧ ∀ line ∈ logLines (markersOf chunk), line ∈ t.recentLogs →
        line ∈ (logLines (markersOf chunk)).foldl (remember recentLimit) t.recentLogs) ∧
    (((t.feed chunk).1.feed chunk).2 = false →
      ((t.feed chunk).1.feed chunk).1 = (t.feed chunk).1) := by
  rw [Tracker.feed_complete ht hchunk]
  have ht' : (t.noteAll (markersOf chunk)).1.partialText = "" := by
    rw [Tracker.noteAll_partialText, ht]
  rw [Tracker.feed_complete ht' hchunk]
  refine ⟨?_, ?_⟩
  · rw [Tracker.noteAll_idle, Tracker.noteAll_fst, knows_foldl_note]
    refine and_congr_right fun _ => forall₂_congr fun line hline => ?_
    constructor
    · exact fun h _ => h
    · intro h
      by_cases hmem : line ∈ t.recentLogs
      · exact h hmem
      · exact mem_foldl_remember hlines hline hmem
  · intro hidle
    rw [Tracker.noteAll_of_idle hidle]

/-! ### The statistics of a transfer -/

/-- The two transfer lines of one block of statistics. -/
def statsBlock : String :=
  "Transferred:   \t    1 MiB / 10 MiB, 10%, 0 B/s, ETA -\nTransferred:            3 / 10, 30%\n"

/-- The two transfer lines take turns in the memory, so a stalled transfer is progress for
ever. -/
theorem statsBlock_never_idle : Complete statsBlock ∧
    (logLines (markersOf statsBlock)).toFinset.card ≤ recentLimit ∧
    ((Tracker.fresh.feed statsBlock).1.feed statsBlock).2 = true := by
  have hlines : splitBreaks false [] statsBlock.toList =
      ["Transferred:   \t    1 MiB / 10 MiB, 10%, 0 B/s, ETA -",
        "Transferred:            3 / 10, 30%", ""] := by decide +kernel
  have hbytes : progressMarker "Transferred:   \t    1 MiB / 10 MiB, 10%, 0 B/s, ETA -" =
      some (.structured .transferred ["1 mib", "10 mib", "10"]) := by decide +kernel
  have hfiles : progressMarker "Transferred:            3 / 10, 30%" =
      some (.structured .transferred ["3", "10", "30"]) := by decide +kernel
  have hblank : progressMarker "" = none := by decide +kernel
  have hmarkers : markersOf statsBlock = [.structured .transferred ["1 mib", "10 mib", "10"],
      .structured .transferred ["3", "10", "30"]] := by
    rw [markersOf, hlines, List.filterMap_cons_some hbytes, List.filterMap_cons_some hfiles,
      List.filterMap_cons_none hblank, List.filterMap_nil]
  have hcomplete : Complete statsBlock := Or.inr (Or.inr (by decide))
  refine ⟨hcomplete, ?_, ?_⟩
  · rw [hmarkers]
    decide
  · have hfirst : Tracker.fresh.feed statsBlock = Tracker.fresh.noteAll (markersOf statsBlock) :=
      Tracker.feed_complete rfl hcomplete
    have htext := Tracker.noteAll_partialText Tracker.fresh (markersOf statsBlock)
    rw [hfirst, Tracker.feed_complete htext hcomplete, hmarkers]
    decide

/-- One transfer line with the same figures is no progress the second time. -/
theorem second_feed_heartbeat :
    ((Tracker.fresh.feed "Transferred: 0 B / 100 B, 0%, 0 B/s, ETA -\n").1.feed
      "Transferred: 0 B / 100 B, 0%, 0 B/s, ETA -\n").2 = false := by
  have hmarkers : markersOf "Transferred: 0 B / 100 B, 0%, 0 B/s, ETA -\n"
      = [.structured .transferred ["0 b", "100 b", "0"]] := by decide +kernel
  refine (second_feed rfl (Or.inr (Or.inr (by decide))) ?_).1.mpr ⟨?_, ?_⟩
  · rw [hmarkers]
    decide
  · rw [hmarkers]
    intro kind value value' h h'
    simp at h h'
    rw [h.2, h'.2]
  · rw [hmarkers]
    intro line hline
    cases hline

end RcloneSync
