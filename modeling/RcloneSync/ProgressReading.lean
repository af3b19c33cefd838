/-
RcloneSync/ProgressReading.lean

How the stall watchdog reads a growing log (`_read_new_log_output`, and the loop that feeds
`_LogProgressTracker`): each poll reads what is new, decodes it and feeds the text.

The tracker itself does not see where a text is cut: feeding two texts is feeding them as
one, with progress in one of the two (`Tracker.feed_append`), because the piece of a line
that is not over waits in its state.  The decoder has no such state.  It begins afresh
with each poll, and a character whose bytes are read by two polls comes out as replacement
characters.  So the polls see what one poll sees wherever no poll ends inside a character
(`polls_eq_one`); where one does, they see another text (`polls_cut_character`).
-/
import RcloneSync.ProgressTracker
import RcloneSync.Utf8

namespace RcloneSync

open Py

/-! ### Lines and the line that is not over -/

/-- The lines that end in the text and the line that is not over, reversed; `cur` is what the
first one begins with, reversed. -/
def lineScan (cur : List Char) : List Char → List (List Char) × List Char
  | [] => ([], cur)
  | c :: cs =>
    if c = '\r' || c = '\n' then (cur.reverse :: (lineScan [] cs).1, (lineScan [] cs).2)
    else lineScan (c :: cur) cs

theorem lineScan_append (cur xs ys : List Char) :
    lineScan cur (xs ++ ys) =
      ((lineScan cur xs).1 ++ (lineScan (lineScan cur xs).2 ys).1,
        (lineScan (lineScan cur xs).2 ys).2) := by
  induction xs generalizing cur with
  | nil => rfl
  | cons c cs ih =>
    rw [List.cons_append, lineScan, lineScan]
    split
    · rw [ih]
      rfl
    · exact ih _

/-- A line that is not over has no break in it, so it is read again as it is. -/
theorem lineScan_rest (cur xs : List Char) (hcur : ∀ c ∈ cur, ¬ (c = '\r' || c = '\n') = true) :
    ∀ c ∈ (lineScan cur xs).2, ¬ (c = '\r' || c = '\n') = true := by
  induction xs generalizing cur with
  | nil => exact hcur
  | cons c cs ih =>
    rw [lineScan]
    split
    · exact ih [] fun _ hc => (List.not_mem_nil hc).elim
    · rename_i hc
      refine ih _ fun d hd => ?_
      rcases List.mem_cons.mp hd with rfl | hd
      · exact hc
      · exact hcur d hd

theorem lineScan_plain (cur : List Char) {xs : List Char}
    (h : ∀ c ∈ xs, ¬ (c = '\r' || c = '\n') = true) :
    lineScan cur xs = ([], xs.reverse ++ cur) := by
  induction xs generalizing cur with
  | nil => rfl
  | cons c cs ih =>
    rw [lineScan, if_neg (h c List.mem_cons_self), ih _ fun d hd => h d (List.mem_cons_of_mem _ hd)]
    simp

/-- The pieces of `re.split` are the lines and the rest, up to empty ones. -/
theorem filterMap_splitBreaks {β : Type*} {f : String → Option β} (hf : f "" = none)
    (skipping : Bool) {cur : List Char} (hskip : skipping = true → cur = []) (cs : List Char) :
    (splitBreaks skipping cur cs).filterMap f =
      (((lineScan cur cs).1.map String.ofList).filterMap f) ++
        (f (String.ofList (lineScan cur cs).2.reverse)).toList := by
  induction cs generalizing skipping cur with
  | nil =>
    rw [splitBreaks, lineScan]
    cases hlast : f (String.ofList cur.reverse) <;> simp [hlast]
  | cons c cs ih =>
    rw [splitBreaks, lineScan]
    split
    · split
      · rename_i hskipping
        obtain rfl := hskip hskipping
        have hempty : f (String.ofList ([] : List Char).reverse) = none := hf
        rw [ih true fun _ => rfl, List.map_cons, List.filterMap_cons_none hempty]
      · rw [List.filterMap_cons, ih true fun _ => rfl, List.map_cons, List.filterMap_cons]
        cases f (String.ofList cur.reverse) <;> rfl
    · exact ih false (fun h => by cases h)

theorem getLast?_splitBreaks (skipping : Bool) (cur cs : List Char)
    (hskip : skipping = true → cur = []) :
    (splitBreaks skipping cur cs).getLast? = some (String.ofList (lineScan cur cs).2.reverse) := by
  induction cs generalizing skipping cur with
  | nil => rfl
  | cons c cs ih =>
    rw [splitBreaks, lineScan]
    split
    · split
      · exact ih true [] fun _ => rfl
      · rw [List.getLast?_cons, ih true [] fun _ => rfl]
        rfl
    · exact ih false _ fun h => by cases h

theorem endsWith_break_iff {text : String} {c : Char} :
    endsWith text (String.singleton c) = true ↔ ∃ front, text.toList = front ++ [c] := by
  unfold endsWith
  rw [List.isSuffixOf_iff_suffix, String.toList_singleton]
  constructor
  · rintro ⟨front, hfront⟩
    exact ⟨front, hfront.symm⟩
  · rintro ⟨front, hfront⟩
    exact ⟨front, hfront.symm⟩

/-- Nothing waits behind a break. -/
theorem lineScan_closed {text : String}
    (h : text = "" ∨ endsWith text "\r" = true ∨ endsWith text "\n" = true) :
    (lineScan [] text.toList).2 = [] := by
  have hbreak : ∀ c : Char, (c = '\r' || c = '\n') = true →
      endsWith text (String.singleton c) = true → (lineScan [] text.toList).2 = [] := by
    intro c hc hend
    obtain ⟨front, hfront⟩ := endsWith_break_iff.mp hend
    rw [hfront, lineScan_append]
    show (lineScan _ [c]).2 = []
    rw [lineScan, if_pos hc]
    rfl
  rcases h with rfl | h | h
  · rfl
  · exact hbreak '\r' rfl h
  · exact hbreak '\n' rfl h

theorem feedPieces_spec {β : Type*} {f : String → Option β} (hf : f "" = none) (text : String) :
    (feedPieces text).1.filterMap f =
        ((lineScan [] text.toList).1.map String.ofList).filterMap f ∧
      (feedPieces text).2 = String.ofList (lineScan [] text.toList).2.reverse := by
  have hall := @filterMap_splitBreaks β f hf false [] (fun h => by cases h) text.toList
  have hlast := getLast?_splitBreaks false [] text.toList fun h => by cases h
  unfold feedPieces
  dsimp only
  split
  · obtain ⟨front, hpieces⟩ := List.getLast?_eq_some_iff.mp hlast
    rw [hpieces] at hall ⊢
    rw [List.filterMap_append] at hall
    rw [List.dropLast_concat, List.getLast?_concat]
    have hone : [String.ofList (lineScan [] text.toList).2.reverse].filterMap f =
        (f (String.ofList (lineScan [] text.toList).2.reverse)).toList := by
      cases hvalue : f (String.ofList (lineScan [] text.toList).2.reverse) <;> simp [hvalue]
    rw [hone] at hall
    exact ⟨List.append_cancel_right hall, rfl⟩
  · rename_i hclosed
    have hrest : (lineScan [] text.toList).2 = [] := by
      refine lineScan_closed ?_
      by_contra hopen
      refine hclosed ?_
      simp only [not_or, Bool.not_eq_true] at hopen
      simp [hopen.1, hopen.2.1, hopen.2.2]
    rw [hall, hrest]
    have hempty : f (String.ofList ([] : List Char).reverse) = none := hf
    rw [hempty]
    exact ⟨List.append_nil _, rfl⟩

/-! ### Feeding in pieces -/

theorem progressMarker_empty : progressMarker "" = none := by decide +kernel

theorem Tracker.noteAll_append (t : Tracker) (ms ns : List Marker) :
    t.noteAll (ms ++ ns) = (((t.noteAll ms).1.noteAll ns).1,
      (t.noteAll ms).2 || ((t.noteAll ms).1.noteAll ns).2) := by
  induction ms generalizing t with
  | nil => simp [Tracker.noteAll]
  | cons m ms ih =>
    rw [List.cons_append, Tracker.noteAll, Tracker.noteAll]
    split
    · exact ih t
    · rw [ih]
      simp

/-- The waiting piece plays no part in what is noted. -/
theorem Tracker.noteAll_setPartial (t : Tracker) (text : String) (ms : List Marker) :
    { t with partialText := text }.noteAll ms =
      ({ (t.noteAll ms).1 with partialText := text }, (t.noteAll ms).2) := by
  induction ms generalizing t with
  | nil => rfl
  | cons m ms ih =>
    have hknows : { t with partialText := text }.Knows m ↔ t.Knows m := by cases m <;> exact Iff.rfl
    have hnote : { t with partialText := text }.note m =
        { t.note m with partialText := text } := by
      cases m <;> rfl
    rw [Tracker.noteAll, Tracker.noteAll]
    by_cases hknown : t.Knows m
    · rw [if_pos (hknows.mpr hknown), if_pos hknown]
      exact ih t
    · rw [if_neg (fun h => hknown (hknows.mp h)), if_neg hknown, hnote, ih]

/-- The markers of the lines that end in a text, and the piece that waits behind them. -/
def scannedMarkers (text : String) : List Marker :=
  ((lineScan [] text.toList).1.map String.ofList).filterMap progressMarker

def scannedRest (text : String) : String := String.ofList (lineScan [] text.toList).2.reverse

theorem Tracker.feed_eq (t : Tracker) (chunk : String) :
    t.feed chunk =
      ({ (t.noteAll (scannedMarkers (t.partialText ++ chunk))).1 with
          partialText := scannedRest (t.partialText ++ chunk) },
        (t.noteAll (scannedMarkers (t.partialText ++ chunk))).2) := by
  obtain ⟨hmarkers, hrest⟩ := feedPieces_spec progressMarker_empty (t.partialText ++ chunk)
  unfold Tracker.feed
  dsimp only
  rw [hmarkers, hrest]
  exact Tracker.noteAll_setPartial t _ _

/-- **Where a text is cut makes no difference to the tracker.** -/
theorem Tracker.feed_append (t : Tracker) (a b : String) :
    t.feed (a ++ b) = (((t.feed a).1.feed b).1, (t.feed a).2 || ((t.feed a).1.feed b).2) := by
  have hplain := lineScan_rest [] (t.partialText ++ a).toList
    fun _ hc => (List.not_mem_nil hc).elim
  have hscan : lineScan [] (scannedRest (t.partialText ++ a) ++ b).toList =
      lineScan (lineScan [] (t.partialText ++ a).toList).2 b.toList := by
    unfold scannedRest
    rw [String.toList_append, String.toList_ofList, lineScan_append, lineScan_plain []
      fun c hc => hplain c (List.mem_reverse.mp hc)]
    simp
  have hwhole : lineScan [] (t.partialText ++ (a ++ b)).toList =
      ((lineScan [] (t.partialText ++ a).toList).1 ++
          (lineScan [] (scannedRest (t.partialText ++ a) ++ b).toList).1,
        (lineScan [] (scannedRest (t.partialText ++ a) ++ b).toList).2) := by
    rw [← String.append_assoc, String.toList_append, lineScan_append, hscan]
  have hmarkers : scannedMarkers (t.partialText ++ (a ++ b)) =
      scannedMarkers (t.partialText ++ a) ++
        scannedMarkers (scannedRest (t.partialText ++ a) ++ b) := by
    unfold scannedMarkers
    rw [hwhole, List.map_append, List.filterMap_append]
  have hrest : scannedRest (t.partialText ++ (a ++ b)) =
      scannedRest (scannedRest (t.partialText ++ a) ++ b) := by
    show String.ofList (lineScan [] (t.partialText ++ (a ++ b)).toList).2.reverse = _
    rw [hwhole]
    rfl
  rw [Tracker.feed_eq t (a ++ b), Tracker.feed_eq t a, Tracker.feed_eq, hmarkers, hrest,
    Tracker.noteAll_append]
  dsimp only
  rw [Tracker.noteAll_setPartial (t.noteAll (scannedMarkers (t.partialText ++ a))).1
    (scannedRest (t.partialText ++ a))]

/-! ### Decoding in pieces -/

/-- The state of the decoder after some bytes. -/
def replaceState (u : Utf8State) : List UInt8 → Utf8State
  | [] => u
  | b :: bs => replaceState (replaceByte u b).1 bs

/-- `raw.decode("utf-8", errors="replace")`, from a state of the decoder. -/
def decodeReplace (u : Utf8State) : List UInt8 → List Char
  | [] => u.unfinished
  | b :: bs => (replaceByte u b).2 ++ decodeReplace (replaceByte u b).1 bs

/-- The bytes go on in the middle of a character. -/
def CutsCharacter (a b : List UInt8) : Prop :=
  (replaceState .start a).owed ≠ 0 ∧
    ∃ c rest, b = c :: rest ∧ utf8Byte (replaceState .start a) c ≠ none

/-- What the decoder does with a byte that does not go on: the character before it is given
up, and it begins afresh. -/
theorem replaceByte_fresh {u : Utf8State} {c : UInt8} (h : u.owed = 0 ∨ utf8Byte u c = none) :
    replaceByte u c = ((replaceByte .start c).1, u.unfinished ++ (replaceByte .start c).2) := by
  have hstart : Utf8State.start.owed = 0 := rfl
  by_cases howed : u.owed = 0
  · have hbyte : utf8Byte u c = utf8Byte .start c := by
      unfold utf8Byte
      rw [if_pos howed]
      rfl
    unfold replaceByte Utf8State.unfinished
    rw [hbyte, if_pos howed]
    cases utf8Byte .start c with
    | none =>
      dsimp only
      rw [if_pos howed, if_pos hstart]
      rfl
    | some r =>
      dsimp only
      rw [if_pos howed]
      rfl
  · have hnone := h.resolve_left howed
    unfold replaceByte Utf8State.unfinished
    rw [hnone]
    dsimp only
    rw [if_neg howed, if_neg howed]
    cases hbyte : utf8Byte .start c with
    | none => rw [if_pos hstart]; rfl
    | some r => rfl

theorem decodeReplace_fresh {u : Utf8State} {b : List UInt8}
    (h : u.owed = 0 ∨ ∀ c rest, b = c :: rest → utf8Byte u c = none) :
    decodeReplace u b = u.unfinished ++ decodeReplace .start b := by
  cases b with
  | nil => exact (List.append_nil _).symm
  | cons c rest =>
    have hbyte := replaceByte_fresh (h.imp_right fun hnone => hnone c rest rfl)
    rw [decodeReplace, decodeReplace, hbyte, List.append_assoc]

theorem decodeReplace_split (u : Utf8State) (a b : List UInt8)
    (h : (replaceState u a).owed = 0 ∨
      ∀ c rest, b = c :: rest → utf8Byte (replaceState u a) c = none) :
    decodeReplace u (a ++ b) = decodeReplace u a ++ decodeReplace .start b := by
  induction a generalizing u with
  | nil => exact decodeReplace_fresh h
  | cons x a ih =>
    rw [List.cons_append, decodeReplace, decodeReplace, ih _ h, List.append_assoc]

theorem not_cutsCharacter {a b : List UInt8} (h : ¬ CutsCharacter a b) :
    (replaceState .start a).owed = 0 ∨
      ∀ c rest, b = c :: rest → utf8Byte (replaceState .start a) c = none := by
  by_contra hcut
  simp only [not_or, not_forall] at hcut
  obtain ⟨howed, c, rest, hb, hbyte⟩ := hcut
  exact h ⟨howed, c, rest, hb, hbyte⟩

/-- **A cut between characters makes no difference to the text.** -/
theorem decodeReplace_append {a b : List UInt8} (h : ¬ CutsCharacter a b) :
    decodeReplace .start (a ++ b) = decodeReplace .start a ++ decodeReplace .start b :=
  decodeReplace_split .start a b (not_cutsCharacter h)

/-- Only the first byte behind the cut matters. -/
theorem CutsCharacter.more {a b : List UInt8} (h : CutsCharacter a b) (c : List UInt8) :
    CutsCharacter a (b ++ c) := by
  obtain ⟨howed, x, rest, rfl, hbyte⟩ := h
  exact ⟨howed, x, rest ++ c, rfl, hbyte⟩

/-! ### Polls -/

/-- `_MAX_PROGRESS_READ_BYTES`. -/
def maxProgressReadBytes : Nat := 512 * 1024

/-- `_read_new_log_output`, for a file of the given content, `none` where it cannot be read. -/
def readNewLogOutput (file : Option (List UInt8)) (offset : Nat) : String × Nat :=
  match file with
  | none => ("", offset)
  | some content =>
    let size := content.length
    let offset := if size < offset then 0 else offset
    if size ≤ offset then ("", size)
    else
      let start :=
        if maxProgressReadBytes < size - offset then size - maxProgressReadBytes else offset
      (String.ofList (decodeReplace .start ((content.drop start).take maxProgressReadBytes)), size)

/-- The watchdog between two polls: the tracker, how far the log was read, and whether a feed
showed progress. -/
structure Watching where
  tracker : Tracker
  logOffset : Nat
  advanced : Bool

/-- One poll of the watchdog's loop. -/
def Watching.poll (w : Watching) (file : Option (List UInt8)) : Watching :=
  let chunk := readNewLogOutput file w.logOffset
  if chunk.1 ≠ "" then
    ⟨(w.tracker.feed chunk.1).1, chunk.2, w.advanced || (w.tracker.feed chunk.1).2⟩
  else { w with logOffset := chunk.2 }

/-- The log at the polls: what was there, and the pieces that were written in between. -/
def growing (log : List UInt8) : List (List UInt8) → List (Option (List UInt8))
  | [] => []
  | piece :: rest => some (log ++ piece) :: growing (log ++ piece) rest

/-- No poll ends inside a character. -/
def CutsNothing (pieces : List (List UInt8)) : Prop :=
  ∀ front back, pieces = front ++ back → ¬ CutsCharacter front.flatten back.flatten

theorem readNewLogOutput_grown (log piece : List UInt8)
    (hlimit : piece.length ≤ maxProgressReadBytes) :
    readNewLogOutput (some (log ++ piece)) log.length =
      (String.ofList (decodeReplace .start piece), (log ++ piece).length) := by
  have hgrown : ¬ (log ++ piece).length < log.length := by
    rw [List.length_append]
    omega
  unfold readNewLogOutput
  dsimp only
  rw [if_neg hgrown]
  by_cases hnone : piece = []
  · subst hnone
    rw [List.append_nil, if_pos (le_refl _)]
    rfl
  · have hnew : ¬ (log ++ piece).length ≤ log.length := by
      have hlength := List.length_pos_iff.mpr hnone
      rw [List.length_append]
      omega
    have hshort : ¬ maxProgressReadBytes < (log ++ piece).length - log.length := by
      rw [List.length_append, Nat.add_sub_cancel_left]
      exact not_lt.mpr hlimit
    rw [if_neg hnew, if_neg hshort, List.drop_left, List.take_of_length_le hlimit]

/-- A poll of a log that has grown by a piece. -/
theorem poll_grown (t : Tracker) (advanced : Bool) (log piece : List UInt8)
    (hlimit : piece.length ≤ maxProgressReadBytes) :
    Watching.poll ⟨t, log.length, advanced⟩ (some (log ++ piece)) =
      if decodeReplace .start piece = [] then ⟨t, (log ++ piece).length, advanced⟩
      else ⟨(t.feed (String.ofList (decodeReplace .start piece))).1, (log ++ piece).length,
        advanced || (t.feed (String.ofList (decodeReplace .start piece))).2⟩ := by
  unfold Watching.poll
  dsimp only
  rw [readNewLogOutput_grown log piece hlimit]
  by_cases hnone : decodeReplace .start piece = []
  · rw [if_pos hnone, hnone, if_neg (by simp)]
  · rw [if_neg hnone, if_pos]
    intro hempty
    refine hnone ?_
    have hlist := congrArg String.toList hempty
    simpa using hlist

/-- Two polls are one, if the first does not end inside a character. -/
theorem poll_poll (t : Tracker) (advanced : Bool) (log a b : List UInt8)
    (hlimit : (a ++ b).length ≤ maxProgressReadBytes) (hcut : ¬ CutsCharacter a b) :
    (Watching.poll ⟨t, log.length, advanced⟩ (some (log ++ a))).poll (some (log ++ a ++ b)) =
      Watching.poll ⟨t, log.length, advanced⟩ (some (log ++ (a ++ b))) := by
  have ha : a.length ≤ maxProgressReadBytes := by
    rw [List.length_append] at hlimit
    omega
  have hb : b.length ≤ maxProgressReadBytes := by
    rw [List.length_append] at hlimit
    omega
  have htext := decodeReplace_append hcut
  rw [poll_grown t advanced log a ha, poll_grown t advanced log (a ++ b) hlimit, htext]
  by_cases hfirst : decodeReplace .start a = []
  · rw [if_pos hfirst, poll_grown t advanced (log ++ a) b hb, hfirst, List.nil_append,
      List.append_assoc]
  · rw [if_neg hfirst, if_neg (fun hnil => hfirst (List.append_eq_nil_iff.mp hnil).1),
      poll_grown _ _ (log ++ a) b hb, List.append_assoc]
    by_cases hsecond : decodeReplace .start b = []
    · rw [if_pos hsecond, hsecond, List.append_nil]
    · rw [if_neg hsecond, String.ofList_append, Tracker.feed_append, Bool.or_assoc]

theorem CutsNothing.first {a b : List UInt8} {rest : List (List UInt8)}
    (h : CutsNothing (a :: b :: rest)) : ¬ CutsCharacter a (b :: rest).flatten := by
  have hcut := h [a] (b :: rest) rfl
  simpa using hcut

theorem CutsNothing.joined {a b : List UInt8} {rest : List (List UInt8)}
    (h : CutsNothing (a :: b :: rest)) : CutsNothing ((a ++ b) :: rest) := by
  intro front back hsplit
  cases front with
  | nil => exact fun hcut => hcut.1 rfl
  | cons first front =>
    obtain ⟨rfl, rfl⟩ := List.cons.inj hsplit
    have hcut := h (a :: b :: front) back rfl
    simpa using hcut

/-- **The polls see what one poll sees**, as long as none of them ends inside a character:
whatever the tracker knows, reading a log that grows by these pieces in as many polls leaves
it as one poll of all of them does, and shows progress if and only if that does. -/
theorem polls_eq_one (w : Watching) (log : List UInt8) (hoffset : w.logOffset = log.length)
    (piece : List UInt8) (pieces : List (List UInt8))
    (hlimit : (piece :: pieces).flatten.length ≤ maxProgressReadBytes)
    (hcuts : CutsNothing (piece :: pieces)) :
    (growing log (piece :: pieces)).foldl Watching.poll w =
      w.poll (some (log ++ (piece :: pieces).flatten)) := by
  obtain ⟨t, offset, advanced⟩ := w
  obtain rfl : offset = log.length := hoffset
  induction pieces generalizing piece with
  | nil =>
    rw [List.flatten_cons, List.flatten_nil, List.append_nil]
    rfl
  | cons next rest ih =>
    have hjoined : ((piece ++ next) :: rest).flatten = (piece :: next :: rest).flatten := by
      simp
    have hshort : (piece ++ next).length ≤ maxProgressReadBytes := by
      rw [← hjoined, List.flatten_cons, List.length_append] at hlimit
      omega
    have hrun := ih (piece ++ next) (hjoined ▸ hlimit) hcuts.joined
    have hcut : ¬ CutsCharacter piece next := fun h => by
      refine hcuts.first ?_
      rw [List.flatten_cons]
      exact h.more rest.flatten
    have htwo := poll_poll t advanced log piece next hshort hcut
    rw [hjoined] at hrun
    rw [← hrun]
    show (growing (log ++ piece ++ next) rest).foldl Watching.poll
      ((Watching.poll ⟨t, log.length, advanced⟩ (some (log ++ piece))).poll
        (some (log ++ piece ++ next))) = _
    rw [htwo, List.append_assoc]
    rfl

/-- A log in two polls, of which the first ends between a carriage return and a line feed. -/
theorem polls_eq_one_terminator :
    (growing [] [[97, 13], [10, 98]]).foldl Watching.poll ⟨Tracker.fresh, 0, false⟩ =
      Watching.poll ⟨Tracker.fresh, 0, false⟩ (some ([] ++ [[97, 13], [10, 98]].flatten)) :=
  polls_eq_one ⟨Tracker.fresh, 0, false⟩ [] rfl [97, 13] [[10, 98]] (by decide)
    (by
      intro front back hsplit hcut
      match front, hsplit with
      | [], _ => exact hcut.1 rfl
      | [_], hsplit =>
        obtain ⟨rfl, _⟩ := List.cons.inj hsplit
        exact hcut.1 rfl
      | [_, _], hsplit =>
        obtain ⟨rfl, htail⟩ := List.cons.inj hsplit
        obtain ⟨rfl, _⟩ := List.cons.inj htail
        exact hcut.1 rfl
      | _ :: _ :: _ :: _, hsplit => simp at hsplit)

/-- A tracker that knows the line `é`. -/
def knowsAccent : Tracker := ⟨"", fun _ => none, ["é"]⟩

/-- **A poll between the two bytes of a character** makes another line of it: the line `é`,
known already, is read as two replacement characters, remembered, and taken for progress. -/
theorem polls_cut_character :
    CutsCharacter [195] [169, 10] ∧
      ((growing [] [[195], [169, 10]]).foldl Watching.poll ⟨knowsAccent, 0, false⟩).advanced
        = true ∧
      ((growing [] [[195], [169, 10]]).foldl Watching.poll
        ⟨knowsAccent, 0, false⟩).tracker.recentLogs = ["é", "\uFFFD\uFFFD"] ∧
      (Watching.poll ⟨knowsAccent, 0, false⟩ (some [195, 169, 10])).advanced = false ∧
      (Watching.poll ⟨knowsAccent, 0, false⟩ (some [195, 169, 10])).tracker.recentLogs
        = ["é"] := by
  refine ⟨⟨by decide, 169, [10], rfl, by decide⟩, ?_, ?_, ?_, ?_⟩ <;> decide +kernel

end RcloneSync
