/-
RcloneSync/ListingText.lean

The listing of a remote point against its whole text (`_remote_listing`, recovery_points.py).

`listing_streams`: what decoding the whole output as one JSON array gives, the listing gives, and
it gives nothing else for a text it reads to the end, but for the white space between the entries.
It does not read a text to the end once it has more entries than are shown: `brokenArray`.
-/
import RcloneSync.RemoteListing

namespace RcloneSync

open Py

/-! ### JSON arrays -/

theorem isSpace_of_isJsonBlank {c : Char} (h : isJsonBlank c = true) : isSpace c = true := by
  simp only [isJsonBlank, Bool.or_eq_true, decide_eq_true_eq] at h
  rcases h with ((rfl | rfl) | rfl) | rfl <;> decide

theorem stripStart_of_skipBlanks {cs tail : List Char} {c : Char}
    (h : skipBlanks cs = c :: tail) (hc : isSpace c = false) : stripStart cs = c :: tail := by
  unfold skipBlanks at h
  unfold stripStart
  induction cs with
  | nil => cases h
  | cons d cs ih =>
    cases hd : isJsonBlank d with
    | true =>
      rw [List.dropWhile_cons_of_pos hd] at h
      rw [List.dropWhile_cons_of_pos (isSpace_of_isJsonBlank hd), ih h]
    | false =>
      rw [List.dropWhile_cons_of_neg (by rw [hd]; decide)] at h
      obtain ⟨rfl, rfl⟩ := List.cons.inj h
      rw [List.dropWhile_cons_of_neg (by rw [hc]; decide)]

theorem stripStart_nil_of_skipBlanks {cs : List Char} (h : skipBlanks cs = []) :
    stripStart cs = [] := by
  unfold skipBlanks at h
  unfold stripStart
  rw [List.dropWhile_eq_nil_iff] at h ⊢
  exact fun c hc => isSpace_of_isJsonBlank (h c hc)

theorem brace_of_readValue {fuel : Nat} {cs rest : List Char} {d : Dict}
    (h : readValue fuel cs = some (.dict d, rest)) : ∃ tail, cs = '\x7b' :: tail := by
  cases fuel with
  | zero => simp [readValue] at h
  | succ fuel =>
    cases cs with
    | nil => simp [readValue] at h
    | cons c cs => exact ⟨cs, by rw [(asDict_readValue h).mp rfl]⟩

/-- The entries of an array, unfolded once. -/
theorem entriesOf_iff {blank : Char → Bool} {g : Nat} {cs rest : List Char} {ds : List Dict} :
    entriesOf blank (g + 1) cs = some (ds, rest) ↔ ∃ d tail c tail',
      readValue cs.length cs = some (.dict d, tail) ∧ tail.dropWhile blank = c :: tail' ∧
      ((c = ']' ∧ ds = [d] ∧ rest = tail') ∨
        (c = ',' ∧ ∃ es, entriesOf blank g (tail'.dropWhile blank) = some (es, rest) ∧
          ds = d :: es)) := by
  constructor
  · intro h
    by_cases hentry : ∃ d tail, readValue cs.length cs = some (.dict d, tail)
    · obtain ⟨d, tail, hvalue⟩ := hentry
      cases hsep : tail.dropWhile blank with
      | nil =>
        rw [entriesOf_cut hvalue hsep] at h
        cases h
      | cons c tail' =>
        rw [entriesOf_dict hvalue hsep] at h
        refine ⟨d, tail, c, tail', hvalue, hsep, ?_⟩
        split at h
        · next hc =>
          obtain ⟨rfl, rfl⟩ := Prod.mk.inj (Option.some.inj h)
          exact .inl ⟨hc, rfl, rfl⟩
        · split at h
          · next hc =>
            obtain ⟨⟨es, rest'⟩, hes, hsame⟩ := Option.map_eq_some_iff.mp h
            obtain ⟨rfl, rfl⟩ := Prod.mk.inj hsame
            exact .inr ⟨hc, es, hes, rfl⟩
          · cases h
    · rw [entriesOf_stuck fun d tail h => hentry ⟨d, tail, h⟩] at h
      cases h
  · rintro ⟨d, tail, c, tail', hvalue, hsep, ⟨rfl, rfl, rfl⟩ | ⟨rfl, es, hes, rfl⟩⟩
    · rw [entriesOf_dict hvalue hsep, if_pos rfl]
    · rw [entriesOf_dict hvalue hsep, if_neg (by decide), if_pos rfl, hes]
      rfl

theorem brace_of_entriesOf {blank : Char → Bool} {g : Nat} {cs rest : List Char} {ds : List Dict}
    (h : entriesOf blank g cs = some (ds, rest)) : ∃ tail, cs = '\x7b' :: tail := by
  cases g with
  | zero => cases h
  | succ g =>
    obtain ⟨d, tail, c, tail', hvalue, -⟩ := entriesOf_iff.mp h
    exact brace_of_readValue hvalue

/-- With JSON's own blanks the entries are the items of a list of mappings. -/
theorem entriesOf_json {fuel g : Nat} {cs rest : List Char} {ds : List Dict}
    (h : readItems fuel cs = some (ds.map .dict, rest)) (hg : cs.length < g) :
    entriesOf isJsonBlank g cs = some (ds, rest) := by
  induction fuel generalizing cs ds g with
  | zero => simp [readItems] at h
  | succ fuel ih =>
    obtain ⟨g, rfl⟩ := exists_succ (Nat.zero_lt_of_lt hg) (Nat.le_refl g)
    obtain ⟨x, tail, c, tail', hx, htail, hend⟩ := readItems_iff.mp h
    have hlength := length_readValue hx
    have hblanks := length_skipBlanks tail
    have hblanks' := length_skipBlanks tail'
    rw [htail, List.length_cons] at hblanks
    have hfull := readValue_fuel hx (Nat.sub_le _ _)
    rw [entriesOf_iff]
    cases ds with
    | nil => rcases hend with ⟨-, hxs, -⟩ | ⟨-, ys, -, hxs⟩ <;> cases hxs
    | cons d ds =>
      rcases hend with ⟨hc, hxs, hrest⟩ | ⟨hc, ys, hys, hxs⟩
      · obtain ⟨rfl, hnil⟩ := List.cons.inj hxs
        rw [List.map_eq_nil_iff.mp hnil]
        exact ⟨d, tail, c, tail', hfull, htail, .inl ⟨hc, rfl, hrest⟩⟩
      · obtain ⟨rfl, rfl⟩ := List.cons.inj hxs
        have hshort : (skipBlanks tail').length < g := by omega
        exact ⟨d, tail, c, tail', hfull, htail, .inr ⟨hc, ds, ih hys hshort, rfl⟩⟩

theorem readItems_of_entriesOf {g : Nat} {cs rest : List Char} {ds : List Dict}
    (h : entriesOf isJsonBlank g cs = some (ds, rest)) :
    ReadsOn readItems cs (ds.map .dict) rest := by
  induction g generalizing cs ds with
  | zero => cases h
  | succ g ih =>
    obtain ⟨d, tail, c, tail', hvalue, htail, hend⟩ := entriesOf_iff.mp h
    have hlength := length_readValue hvalue
    have hblanks := length_skipBlanks tail
    have hblanks' := length_skipBlanks tail'
    have htail' : skipBlanks tail = c :: tail' := htail
    rw [htail', List.length_cons] at hblanks
    refine (readsAlong (cs.length + 1)).items (readItems_iff.mpr ⟨.dict d, tail, c, tail', hvalue,
      htail', ?_⟩)
    rcases hend with ⟨hc, rfl, hrest⟩ | ⟨hc, es, hes, rfl⟩
    · exact .inl ⟨hc, rfl, hrest⟩
    · obtain ⟨-, hread⟩ := ih hes
      have hfuel : (skipBlanks tail').length - rest.length ≤ cs.length := by omega
      have hmore := hread [] cs.length hfuel
      rw [List.append_nil, List.append_nil] at hmore
      exact .inr ⟨hc, es.map .dict, hmore, rfl⟩

/-- What is an array with JSON's blanks is one with any white space. -/
theorem entriesOf_isSpace {g : Nat} {cs rest : List Char} {ds : List Dict}
    (h : entriesOf isJsonBlank g cs = some (ds, rest)) :
    entriesOf isSpace g cs = some (ds, rest) := by
  induction g generalizing cs ds with
  | zero => cases h
  | succ g ih =>
    obtain ⟨d, tail, c, tail', hvalue, htail, hend⟩ := entriesOf_iff.mp h
    rw [entriesOf_iff]
    rcases hend with ⟨rfl, hds, hrest⟩ | ⟨rfl, es, hes, hds⟩
    · exact ⟨d, tail, ']', tail', hvalue, stripStart_of_skipBlanks htail (by decide),
        .inl ⟨rfl, hds, hrest⟩⟩
    · obtain ⟨after, hafter⟩ := brace_of_entriesOf hes
      have hstrip := stripStart_of_skipBlanks hafter (by decide)
      have hes' := ih hes
      rw [hafter] at hes'
      refine ⟨d, tail, ',', tail', hvalue, stripStart_of_skipBlanks htail (by decide),
        .inr ⟨rfl, es, ?_, hds⟩⟩
      show entriesOf isSpace g (stripStart tail') = _
      rw [hstrip, hes']

theorem readUnless_iff {α : Type} {close : Char} {read : List Char → Option (List α × List Char)}
    {cs rest : List Char} {xs : List α} : readUnless close read cs = some (xs, rest) ↔
      (behindWord [close] cs = some rest ∧ xs = []) ∨
        (behindWord [close] cs = none ∧ read cs = some (xs, rest)) := by
  unfold readUnless
  cases behindWord [close] cs with
  | none => simp
  | some tail => simp [and_comm, eq_comm]

/-- Only a bracket opens a list. -/
theorem readValue_list {fuel : Nat} {cs rest : List Char} {xs : List Value}
    (h : readValue fuel cs = some (.list xs, rest)) : ∃ f tail, cs = '[' :: tail ∧
      readUnless ']' (readItems f) (skipBlanks tail) = some (xs, rest) := by
  cases fuel with
  | zero => simp [readValue] at h
  | succ fuel =>
    cases cs with
    | nil => simp [readValue] at h
    | cons c cs =>
      by_cases hquote : c = '"'
      · subst hquote
        rw [readValue_quote] at h
        obtain ⟨r, -, hsame⟩ := Option.map_eq_some_iff.mp h
        cases (Prod.mk.inj hsame).1
      by_cases hbracket : c = '['
      · subst hbracket
        rw [readValue_bracket] at h
        obtain ⟨⟨ys, tail⟩, hread, hsame⟩ := Option.map_eq_some_iff.mp h
        obtain ⟨hys, rfl⟩ := Prod.mk.inj hsame
        obtain rfl := Value.list.inj hys
        exact ⟨fuel, cs, rfl, hread⟩
      by_cases hbrace : c = '\x7b'
      · subst hbrace
        rw [readValue_brace] at h
        obtain ⟨r, -, hsame⟩ := Option.map_eq_some_iff.mp h
        cases (Prod.mk.inj hsame).1
      · rw [readValue, if_neg hquote, if_neg hbracket, if_neg hbrace] at h
        exact absurd rfl ((readScalar_leaf h).2 xs)

theorem arrayOf_iff {blank : Char → Bool} {text : List Char} {ds : List Dict} :
    arrayOf blank text = some ds ↔ ∃ tail rest, text.dropWhile blank = '[' :: tail ∧
      readUnless ']' (entriesOf blank (tail.length + 1)) (tail.dropWhile blank) = some (ds, rest) ∧
      rest.dropWhile blank = [] := by
  constructor
  · intro h
    cases hopen : behindWord ['['] (text.dropWhile blank) with
    | none =>
      rw [arrayOf_none hopen] at h
      cases h
    | some tail =>
      rw [arrayOf_open hopen] at h
      obtain ⟨⟨es, rest⟩, hread, hend⟩ := Option.bind_eq_some_iff.mp h
      refine ⟨tail, rest, eq_of_behindWord hopen, ?_⟩
      split at hend
      · next hrest =>
        obtain rfl := Option.some.inj hend
        exact ⟨hread, hrest⟩
      · cases hend
  · rintro ⟨tail, rest, hopen, hread, hrest⟩
    have hbehind : behindWord ['['] (text.dropWhile blank) = some tail := by
      rw [hopen]
      rfl
    rw [arrayOf_open hbehind, hread]
    exact if_pos hrest

/-- **A text that is one JSON array of objects**, entry by entry. -/
theorem jsonLoads_array {text : List Char} {ds : List Dict} :
    jsonLoads (String.ofList text) = some (.list (ds.map .dict)) ↔
      arrayOf isJsonBlank text = some ds := by
  rw [arrayOf_iff]
  unfold jsonLoads
  simp only [Option.bind_eq_bind, Option.bind_eq_some_iff, Prod.exists, String.toList_ofList]
  constructor
  · rintro ⟨v, rest, hvalue, hend⟩
    split at hend
    · next hrest =>
      obtain rfl := Option.some.inj hend
      obtain ⟨f, tail, hopen, hread⟩ := readValue_list hvalue
      refine ⟨tail, rest, hopen, readUnless_iff.mpr ?_, List.isEmpty_iff.mp hrest⟩
      have hlength := length_skipBlanks tail
      exact (readUnless_iff.mp hread).imp
        (fun ⟨hclose, hds⟩ => ⟨hclose, List.map_eq_nil_iff.mp hds⟩)
        (fun ⟨hclose, hitems⟩ => ⟨hclose, entriesOf_json hitems (Nat.lt_succ_of_le hlength)⟩)
    · cases hend
  · rintro ⟨tail, rest, hopen, hread, hrest⟩
    have hitems : readUnless ']' (readItems (tail.length + 1)) (skipBlanks tail) =
        some (ds.map .dict, rest) := by
      rw [readUnless_iff]
      refine (readUnless_iff.mp hread).imp (fun ⟨hclose, hds⟩ => ⟨hclose, by rw [hds]; rfl⟩)
        fun ⟨hclose, hentries⟩ => ⟨hclose, ?_⟩
      have hmore := (readItems_of_entriesOf hentries).2 [] (tail.length + 1) (by
        have hlength := length_skipBlanks tail
        show (skipBlanks tail).length - _ ≤ _
        omega)
      rwa [List.append_nil, List.append_nil] at hmore
    have hvalue : readValue (tail.length + 2) ('[' :: tail) =
        some (.list (ds.map .dict), rest) := by
      rw [readValue_bracket, hitems]
      rfl
    have hblanks := length_skipBlanks text
    have hopen' : skipBlanks text = '[' :: tail := hopen
    rw [hopen', List.length_cons] at hblanks
    rw [hopen']
    refine ⟨_, rest, readValue_fuel hvalue ?_, ?_⟩
    · rw [String.length_ofList, List.length_cons]
      omega
    · have hempty : (skipBlanks rest).isEmpty = true := List.isEmpty_iff.mpr hrest
      rw [if_pos hempty]

theorem arrayOf_isSpace {text : List Char} {ds : List Dict}
    (h : arrayOf isJsonBlank text = some ds) : arrayOf isSpace text = some ds := by
  obtain ⟨tail, rest, hopen, hread, hrest⟩ := arrayOf_iff.mp h
  refine arrayOf_iff.mpr ⟨tail, rest, stripStart_of_skipBlanks hopen (by decide), ?_,
    stripStart_nil_of_skipBlanks hrest⟩
  rw [readUnless_iff] at hread ⊢
  rcases hread with ⟨hclose, hds⟩ | ⟨hclose, hentries⟩
  · have hstrip := stripStart_of_skipBlanks (eq_of_behindWord hclose) (by decide)
    refine .inl ⟨?_, hds⟩
    show behindWord [']'] (stripStart tail) = _
    rw [hstrip]
    rfl
  · obtain ⟨after, hafter⟩ := brace_of_entriesOf hentries
    have hstrip := stripStart_of_skipBlanks hafter (by decide)
    have hentries' := entriesOf_isSpace hentries
    rw [hafter] at hclose hentries'
    refine .inr ?_
    show behindWord [']'] (stripStart tail) = _ ∧ entriesOf isSpace _ (stripStart tail) = _
    rw [hstrip]
    exact ⟨hclose, hentries'⟩

/-- The entries of a whole array are the ones that can be read from its beginning. -/
theorem leadingItems_of_entriesOf {g : Nat} {cs rest : List Char} {ds : List Dict}
    (h : entriesOf isSpace g cs = some (ds, rest)) : leadingItems g cs = ds := by
  induction g generalizing cs ds with
  | zero => cases h
  | succ g ih =>
    obtain ⟨d, tail, c, tail', hvalue, htail, hend⟩ := entriesOf_iff.mp h
    have hsep : stripStart tail = c :: tail' := htail
    rw [leadingItems_dict hvalue, hsep]
    rcases hend with ⟨rfl, rfl, -⟩ | ⟨rfl, es, hes, rfl⟩
    · rfl
    · rw [← ih hes]
      rfl

theorem leadingEntries_of_arrayOf {text : List Char} {ds : List Dict}
    (h : arrayOf isSpace text = some ds) : leadingEntries text = ds := by
  obtain ⟨tail, rest, hopen, hread, -⟩ := arrayOf_iff.mp h
  have hstrip : stripStart text = '[' :: tail := hopen
  have hbehind : behindWord ['['] ('[' :: tail) = some tail := behindWord_self ['[']
  unfold leadingEntries
  rw [hstrip, hbehind]
  show leadingItems (tail.length + 1) (tail.dropWhile isSpace) = ds
  rcases readUnless_iff.mp hread with ⟨hclose, rfl⟩ | ⟨-, hentries⟩
  · rw [eq_of_behindWord hclose]
    refine leadingItems_stuck fun d after hvalue => ?_
    obtain ⟨more, hbrace⟩ := brace_of_readValue hvalue
    cases (List.cons.inj hbrace).1
  · exact leadingItems_of_entriesOf hentries

/-! ### Whole arrays -/

/-- The listing of a text decoded at once, as one JSON array of objects. -/
def decodedListing (bytes : List UInt8) : Except PointError (List Dict × Bool) :=
  match (decodeText bytes).bind fun text => jsonLoads (String.ofList text) with
  | some (.list xs) =>
    (xs.mapM asDict).elim (.error invalidListing) fun ds =>
      .ok (ds.take maxBrowseItems, decide (maxBrowseItems < ds.length))
  | _ => .error invalidListing

theorem map_of_asDict {xs : List Value} {ds : List Dict} (h : xs.mapM asDict = some ds) :
    xs = ds.map .dict := by
  induction xs generalizing ds with
  | nil =>
    rw [List.mapM_nil] at h
    cases h
    rfl
  | cons x xs ih =>
    simp only [List.mapM_cons, Option.bind_eq_bind, Option.bind_eq_some_iff] at h
    obtain ⟨d, hx, ds', hxs, hsame⟩ := h
    cases hsame
    rw [ih hxs]
    cases x with
    | dict e =>
      cases hx
      rfl
    | none | bool | int | float | str | list => cases hx

/-- What the whole array gives, its text gives entry by entry. -/
theorem decodedListing_ok {bytes : List UInt8} {r : List Dict × Bool}
    (h : decodedListing bytes = .ok r) : ∃ text ds, decodeText bytes = some text ∧
      arrayOf isJsonBlank text = some ds ∧
      r = (ds.take maxBrowseItems, decide (maxBrowseItems < ds.length)) := by
  unfold decodedListing at h
  split at h
  · next xs hxs =>
    obtain ⟨text, htext, hloads⟩ := Option.bind_eq_some_iff.mp hxs
    cases hds : xs.mapM asDict with
    | none =>
      rw [hds] at h
      cases h
    | some ds =>
      rw [hds] at h
      rw [map_of_asDict hds] at hloads
      exact ⟨text, ds, htext, jsonLoads_array.mp hloads, (Except.ok.inj h).symm⟩
  · cases h

theorem listingOf_array {text : List Char} {ds : List Dict} (h : arrayOf isSpace text = some ds) :
    listingOf text = .ok (ds.take maxBrowseItems, decide (maxBrowseItems < ds.length)) := by
  unfold listingOf
  rw [leadingEntries_of_arrayOf h, h]
  by_cases hmany : maxBrowseItems < ds.length
  · rw [if_pos hmany, decide_eq_true hmany]
  · rw [if_neg hmany, decide_eq_false hmany, List.take_of_length_le (Nat.not_lt.mp hmany)]

/-! ### What the listing returns -/

section Listing

variable {run : CommandRun} {text : List Char}

/-- A run within the limit that ends well comes to what its text gives. -/
theorem remoteListing_text (hsize : run.blocks.flatten.length ≤ maxRemoteBytes)
    (htime : run.timedOut = false) (hexit : run.returncode = 0)
    (htext : decodeText run.blocks.flatten = some text) : remoteListing run = listingOf text := by
  obtain ⟨⟨u, cs⟩, hdecode, hsame⟩ := Option.bind_eq_some_iff.mp htext
  dsimp only at hsame
  split at hsame
  · next howed =>
    obtain rfl := Option.some.inj hsame
    have hagrees := @listBlocks_agrees .start u .start [] cs run.blocks 0 hdecode (by omega) rfl
    rw [wholeRun_start] at hagrees
    unfold remoteListing
    cases hblocks : listBlocks 0 .start [] .start run.blocks with
    | error e =>
      rw [hblocks] at hagrees
      obtain ⟨rfl, hwhole⟩ := hagrees
      exact hwhole.symm
    | ok r =>
      rw [hblocks] at hagrees
      obtain ⟨items, _ | ⟨v, s⟩⟩ := r
      · exact hagrees.symm
      · obtain ⟨rfl, hwait, hwhole⟩ := hagrees
        rw [hwhole, ← drainFinal_waits hwait s.pending.length]
        simp only [htime, hexit, howed]
        rfl
  · cases hsame

/-- Output that is not text gives the error, if the entries before the bad byte are not enough. -/
theorem remoteListing_invalid (hsize : run.blocks.flatten.length ≤ maxRemoteBytes)
    (htime : run.timedOut = false) (hexit : run.returncode = 0)
    (htext : decodeText run.blocks.flatten = none) : remoteListing run = .error invalidListing ∨
      ∃ items : List Dict, remoteListing run = .ok (items.take maxBrowseItems, true) ∧
        listingOf (validText .start run.blocks.flatten) =
          .ok (items.take maxBrowseItems, true) := by
  unfold remoteListing
  cases hdecode : decodeBlock .start run.blocks.flatten with
  | none =>
    rcases @listBlocks_invalid .start .start [] run.blocks 0 hdecode (by omega) with
      hfail | ⟨items, hblocks, hwhole⟩
    · rw [hfail]
      exact .inl rfl
    · rw [wholeRun_start] at hwhole
      rw [hblocks]
      exact .inr ⟨items, rfl, hwhole⟩
  | some r =>
    obtain ⟨u, cs⟩ := r
    have howed : u.owed ≠ 0 := by
      intro howed
      unfold decodeText at htext
      rw [hdecode, Option.bind_some, if_pos howed] at htext
      cases htext
    have hvalid := validText_append hdecode []
    rw [List.append_nil, validText, List.append_nil] at hvalid
    have hagrees := @listBlocks_agrees .start u .start [] cs run.blocks 0 hdecode (by omega) rfl
    rw [wholeRun_start, ← hvalid] at hagrees
    cases hblocks : listBlocks 0 .start [] .start run.blocks with
    | error e =>
      rw [hblocks] at hagrees
      obtain ⟨rfl, -⟩ := hagrees
      exact .inl rfl
    | ok r =>
      rw [hblocks] at hagrees
      obtain ⟨items, _ | ⟨v, s⟩⟩ := r
      · exact .inr ⟨items, rfl, hagrees⟩
      · obtain ⟨rfl, -, -⟩ := hagrees
        simp only [htime, hexit, if_pos howed]
        exact .inl rfl

end Listing

/-- The listing of a text is cut only behind more entries than are shown. -/
theorem listingOf_truncated {text : List Char} {ds : List Dict}
    (h : listingOf text = .ok (ds, true)) :
    maxBrowseItems < (leadingEntries text).length ∧
      ds = (leadingEntries text).take maxBrowseItems := by
  unfold listingOf at h
  split at h
  · next hmany =>
    obtain ⟨rfl, -⟩ := Prod.mk.inj (Except.ok.inj h)
    exact ⟨hmany, rfl⟩
  · split at h
    · cases (Prod.mk.inj (Except.ok.inj h)).2
    · cases h

/-- **The listing is that of the whole text**, however the output is divided. -/
theorem listing_streams (run : CommandRun)
    (hsize : run.blocks.flatten.length ≤ maxRemoteBytes)
    (htime : run.timedOut = false) (hexit : run.returncode = 0) :
    (∀ r, decodedListing run.blocks.flatten = .ok r → remoteListing run = .ok r) ∧
    (∀ text, decodeText run.blocks.flatten = some text →
      remoteListing run = listingOf text ∧
      ((leadingEntries text).length ≤ maxBrowseItems →
        (remoteListing run = .error invalidListing ↔ arrayOf isSpace text = none))) ∧
    (decodeText run.blocks.flatten = none →
      remoteListing run = .error invalidListing ∨
      (maxBrowseItems < (leadingEntries (validText .start run.blocks.flatten)).length ∧
        remoteListing run = .ok ((leadingEntries (validText .start run.blocks.flatten)).take
          maxBrowseItems, true))) ∧
    (∀ run' : CommandRun, run'.blocks.flatten = run.blocks.flatten →
      run'.timedOut = false → run'.returncode = 0 →
      ∀ r r', remoteListing run = .ok r → remoteListing run' = .ok r' → r = r') := by
  refine ⟨fun r hr => ?_, fun text htext => ⟨?_, fun hfew => ?_⟩, fun hnone => ?_, ?_⟩
  · obtain ⟨text, ds, htext, harray, rfl⟩ := decodedListing_ok hr
    rw [remoteListing_text hsize htime hexit htext, listingOf_array (arrayOf_isSpace harray)]
  · exact remoteListing_text hsize htime hexit htext
  · rw [remoteListing_text hsize htime hexit htext]
    unfold listingOf
    rw [if_neg (Nat.not_lt.mpr hfew)]
    cases arrayOf isSpace text with
    | none => exact ⟨fun _ => rfl, fun _ => rfl⟩
    | some ds => exact ⟨(by cases ·), (by cases ·)⟩
  · refine (remoteListing_invalid hsize htime hexit hnone).imp_right ?_
    rintro ⟨items, hrun, hwhole⟩
    obtain ⟨hmany, hitems⟩ := listingOf_truncated hwhole
    rw [hrun, hitems]
    exact ⟨hmany, rfl⟩
  · intro run' hsame htime' hexit' r r' hr hr'
    have hsize' : run'.blocks.flatten.length ≤ maxRemoteBytes := by rwa [hsame]
    have hequal : ∀ {x : Except PointError (List Dict × Bool)},
        remoteListing run = x → remoteListing run' = x → r = r' := by
      intro x hx hx'
      rw [hr] at hx
      rw [hr', ← hx] at hx'
      exact (Except.ok.inj hx').symm
    cases htext : decodeText run.blocks.flatten with
    | some text =>
      exact hequal (remoteListing_text hsize htime hexit htext)
        (remoteListing_text hsize' htime' hexit' (by rw [hsame, htext]))
    | none =>
      have hwhole := (remoteListing_invalid hsize htime hexit htext).resolve_left
        (by rw [hr]; exact (by cases ·))
      have hnone' : decodeText run'.blocks.flatten = none := by rw [hsame, htext]
      have hwhole' := (remoteListing_invalid hsize' htime' hexit' hnone').resolve_left
        (by rw [hr']; exact (by cases ·))
      obtain ⟨items, hrun, hlist⟩ := hwhole
      obtain ⟨items', hrun', hlist'⟩ := hwhole'
      rw [hsame, hlist] at hlist'
      rw [← hlist'] at hrun'
      exact hequal hrun hrun'

/-- The two bytes of a character come in two blocks. -/
theorem listing_streams_divided :
    remoteListing ⟨[[0x5B, 0x7B, 0x22, 0xC3], [0xA9, 0x22, 0x3A, 0x31, 0x7D, 0x5D]], false, 0⟩ =
      .ok ([Dict.set [] "é" (.int 1)], false) :=
  (listing_streams ⟨[[0x5B, 0x7B, 0x22, 0xC3], [0xA9, 0x22, 0x3A, 0x31, 0x7D, 0x5D]], false, 0⟩
    (by decide +kernel) rfl rfl).1 _ (by decide +kernel)

/-! ### An array that goes on -/

/-- An array that breaks off behind `n` empty objects, a block for each. -/
def brokenArray (n : Nat) : CommandRun :=
  ⟨[0x5B] :: List.replicate n [0x7B, 0x7D, 0x2C] ++ [[0x78]], false, 0⟩

def brokenText (n : Nat) : List Char := (List.replicate n ['\x7b', '\x7d', ',']).flatten ++ ['x']

theorem brokenText_succ (n : Nat) :
    brokenText (n + 1) = '\x7b' :: '\x7d' :: ',' :: brokenText n := by
  unfold brokenText
  rw [List.replicate_succ, List.flatten_cons]
  rfl

theorem decodeText_broken (n : Nat) :
    decodeText (brokenArray n).blocks.flatten = some ('[' :: brokenText n) := by
  have hentries : decodeBlock .start ((List.replicate n [0x7B, 0x7D, 0x2C]).flatten ++ [0x78]) =
      some (.start, brokenText n) := by
    induction n with
    | zero => decide
    | succ n ih =>
      have hfirst : decodeBlock .start [0x7B, 0x7D, 0x2C] =
          some (.start, ['\x7b', '\x7d', ',']) := by decide
      rw [List.replicate_succ, List.flatten_cons, List.append_assoc, decodeBlock_append, hfirst,
        Option.bind_some, ih, brokenText_succ]
      rfl
  have hflatten : (brokenArray n).blocks.flatten =
      [0x5B] ++ ((List.replicate n [0x7B, 0x7D, 0x2C]).flatten ++ [0x78]) := by
    simp [brokenArray]
  have hopen : decodeBlock .start [0x5B] = some (.start, ['[']) := by decide
  unfold decodeText
  rw [hflatten, decodeBlock_append, hopen, Option.bind_some, hentries]
  rfl

/-- The entries never come to an end. -/
theorem entriesOf_broken (blank : Char → Bool) (hblank : ∀ c ∈ ['\x7b', ',', 'x'], blank c = false)
    (g n : Nat) : entriesOf blank g (brokenText n) = none := by
  induction g generalizing n with
  | zero => rfl
  | succ g ih =>
    cases n with
    | zero =>
      refine entriesOf_stuck fun d rest h => ?_
      obtain ⟨tail, htail⟩ := brace_of_readValue h
      cases (List.cons.inj htail).1
    | succ n =>
      have hvalue : readValue (brokenText (n + 1)).length (brokenText (n + 1)) =
          some (.dict [], ',' :: brokenText n) := by
        rw [brokenText_succ]
        rfl
      have hcomma : (',' :: brokenText n).dropWhile blank = ',' :: brokenText n :=
        List.dropWhile_cons_of_neg (by rw [hblank ',' (by decide)]; decide)
      have hnext : (brokenText n).dropWhile blank = brokenText n := by
        cases n with
        | zero => exact List.dropWhile_cons_of_neg (by rw [hblank 'x' (by decide)]; decide)
        | succ n =>
          rw [brokenText_succ]
          exact List.dropWhile_cons_of_neg (by rw [hblank '\x7b' (by decide)]; decide)
      rw [entriesOf_dict hvalue hcomma, hnext, ih n]
      rfl

theorem arrayOf_broken (n : Nat) : arrayOf isJsonBlank ('[' :: brokenText (n + 1)) = none := by
  have hclose : behindWord [']'] (brokenText (n + 1)) = none := by
    rw [brokenText_succ]
    rfl
  have hstart : (brokenText (n + 1)).dropWhile isJsonBlank = brokenText (n + 1) := by
    rw [brokenText_succ]
    rfl
  have hopen : behindWord ['['] (('[' :: brokenText (n + 1)).dropWhile isJsonBlank) =
      some (brokenText (n + 1)) := behindWord_self ['[']
  rw [arrayOf_open hopen, hstart]
  unfold readUnless
  rw [hclose]
  dsimp only
  have hblank : ∀ c ∈ ['\x7b', ',', 'x'], isJsonBlank c = false := by
    intro c hc
    simp only [List.mem_cons, List.not_mem_nil, or_false] at hc
    rcases hc with rfl | rfl | rfl <;> rfl
  rw [entriesOf_broken isJsonBlank hblank]
  rfl

/-- The first entries are listed although the text is no array. -/
theorem not_decoded_listing : ¬ ∀ run : CommandRun,
    run.blocks.flatten.length ≤ maxRemoteBytes → run.timedOut = false → run.returncode = 0 →
      remoteListing run = decodedListing run.blocks.flatten := by
  intro h
  have hlisted : (remoteListing (brokenArray 501)).isOk = true := by decide +kernel
  rw [h (brokenArray 501) (by decide +kernel) rfl rfl] at hlisted
  cases hdecoded : decodedListing (brokenArray 501).blocks.flatten with
  | error e =>
    rw [hdecoded] at hlisted
    cases hlisted
  | ok r =>
    obtain ⟨text, ds, htext, harray, -⟩ := decodedListing_ok hdecoded
    rw [decodeText_broken] at htext
    obtain rfl := Option.some.inj htext
    rw [arrayOf_broken 500] at harray
    cases harray

end RcloneSync
