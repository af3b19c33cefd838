/-
RcloneSync/ConfigRedaction.lean

The configuration as the interface shows it and takes it back (routes/api_config.py): `_redact`
puts a placeholder where a secret is stored, and `_preserve_sensitive` puts the secrets back.
Which fields are secret is decided by their names (`is_secret_key`, secret_redaction.py).

The placeholders are restored by a walk over the new and the stored configuration together, by
keys in mappings and by positions in lists.  What the walk does not know are the elements of a
list: it takes the one at the same position for the same.

The lemmas say what is found at a key or at a position after a walk, and that the unchanged view
of a configuration gives it back if it has the sections and fields that are put in anyway
(`preserveSensitive_of_hasSections`).
-/
import RcloneSync.Acknowledge
import RcloneSync.PairRunner

namespace RcloneSync

open Py

/-! ### Secret names -/

def directSecretTokens : List String :=
  ["auth", "authorization", "bearer", "cookie", "credential", "credentials", "passwd",
   "passphrase", "password", "secret", "signature", "token"]

def secretKeyPairs : List (String × String) :=
  [("access", "key"), ("api", "key"), ("client", "key"), ("customer", "key"),
   ("encryption", "key"), ("private", "key"), ("session", "id"), ("session", "key"),
   ("signing", "key")]

def safeMetadataSuffixes : List String :=
  ["algorithm", "count", "enabled", "expires", "expiry", "hint", "last4", "length", "mode", "name",
   "policy", "prefix", "present", "provider", "required", "status", "type", "url"]

def sensitiveHeaderNames : List String :=
  ["authorization", "cookie", "proxy-authorization", "set-cookie", "x-api-key", "x-auth-token"]

def isLowerOrDigit (c : Char) : Bool :=
  decide ('a' ≤ c ∧ c ≤ 'z') || decide ('0' ≤ c ∧ c ≤ '9')

def isUpperLetter (c : Char) : Bool := decide ('A' ≤ c ∧ c ≤ 'Z')

/-- The pieces between the matches of `_WORD_BOUNDARY_RE`: the boundary between a small letter or
a digit and a capital letter, and everything that is no letter or digit.  `word` is the piece at
hand, reversed, and `before` the character before the next one. -/
def wordPieces (before : Option Char) (word : List Char) : List Char → List (List Char)
  | [] => [word.reverse]
  | c :: cs =>
    if !(isLowerOrDigit c || isUpperLetter c) then
      word.reverse :: wordPieces (some c) [] cs
    else if isUpperLetter c && before.any isLowerOrDigit then
      word.reverse :: wordPieces (some c) [c] cs
    else wordPieces (some c) (c :: word) cs

/-- `_key_words`. -/
def keyWords (key : String) : List String :=
  ((wordPieces none [] key.toList).filter fun word => !word.isEmpty).map
    fun word => casefold (String.ofList word)

/-- `is_secret_key`. -/
def isSecretKey (key : String) : Bool :=
  if sensitiveHeaderNames.contains (casefold (strip key)) then true
  else
    let words := keyWords key
    match words.getLast? with
    | none => false
    | some last =>
      if safeMetadataSuffixes.contains last then false
      else words.any directSecretTokens.contains ||
        (words.zip words.tail).any secretKeyPairs.contains

example : ["password_hash", "apiKey", "session-id", "token_name", "tokenized", "Cookie"].map
    isSecretKey = [true, true, true, false, false, true] := by decide +kernel

/-! ### The view of the interface -/

def placeholder : Value := .str "***SET***"

/-- `_SENSITIVE`. -/
def sensitiveFields : List (String × String) :=
  [("web", "secret_key"), ("web", "password_hash"), ("web", "password"), ("pbs", "password")]

/-- `_walk_parent` for a field of a section, without creating the section. -/
def walkParent (data : Dict) (name : String) : Option Dict := asDict (data.get name)

/-- `value in (None, "")`. -/
def isBlankValue (v : Value) : Bool := decide (v = .none ∨ v = .str "")

/-- The field is shown as a placeholder. -/
def isHidden (key : String) (v : Value) : Bool := isSecretKey key && !isBlankValue v

mutual

/-- `_redact_nested`. -/
def redactNested : Value → Value
  | .list xs => .list (redactItems xs)
  | .dict d => .dict (redactEntries d)
  | .none => .none
  | .bool b => .bool b
  | .int n => .int n
  | .float x => .float x
  | .str s => .str s

def redactItems : List Value → List Value
  | [] => []
  | x :: xs => redactNested x :: redactItems xs

def redactEntries : Dict → Dict
  | [] => []
  | (key, v) :: d =>
    (key, if isHidden key v then placeholder else redactNested v) :: redactEntries d

end

/-- The placeholder in a field of a section. -/
def redactField (data : Dict) (field : String × String) : Dict :=
  match walkParent data field.1 with
  | some parent =>
    if truthy (parent.get field.2) then
      data.set field.1 (.dict (parent.set field.2 placeholder))
    else data
  | none => data

/-- `_redact`. -/
def redactConfig (data : Dict) (revision : Option String) : Dict :=
  let out := redactEntries (sensitiveFields.foldl redactField data)
  match revision with
  | some r => out.set "_revision" (.str r)
  | none => out

theorem isSecretKey_of_isHidden {key : String} {v : Value} (h : isHidden key v = true) :
    isSecretKey key = true := (Bool.and_eq_true_iff.mp h).1

theorem isBlankValue_of_isHidden {key : String} {v : Value} (h : isHidden key v = true) :
    isBlankValue v = false := by
  have hblank : (!isBlankValue v) = true := (Bool.and_eq_true_iff.mp h).2
  rwa [Bool.not_eq_true'] at hblank

theorem lookup_redactEntries (d : Dict) (k : String) :
    (redactEntries d).lookup k
      = (d.lookup k).map fun v => if isHidden k v then placeholder else redactNested v := by
  induction d with
  | nil => rfl
  | cons e d ih =>
    obtain ⟨key, v⟩ := e
    rw [redactEntries, List.lookup_cons, List.lookup_cons]
    by_cases hk : k = key
    · subst hk
      simp
    · rw [beq_false_of_ne hk]
      exact ih

theorem getElem?_redactItems (xs : List Value) (n : Nat) :
    (redactItems xs)[n]? = xs[n]?.map redactNested := by
  induction xs generalizing n with
  | nil => rfl
  | cons x xs ih =>
    cases n with
    | zero => rfl
    | succ n => exact ih n

/-- Only a text is shown as that text, where no field is. -/
theorem redactNested_eq_placeholder {v : Value} (h : redactNested v = placeholder) :
    v = placeholder := by
  cases v with
  | list xs => cases h
  | dict d => cases h
  | _ => exact h

/-! ### The way back -/

mutual

/-- `_preserve_nested_placeholders`: the new value with the secrets of the old one. -/
def preserveNested : Value → Value → Value
  | .list xs, .list ys => .list (preserveItems xs ys)
  | .dict d, .dict old => .dict (preserveEntries d old)
  | v, _ => v

/-- The elements that stand behind the last old one are left as they are. -/
def preserveItems : List Value → List Value → List Value
  | x :: xs, y :: ys => preserveNested x y :: preserveItems xs ys
  | xs, _ => xs

def preserveEntries : Dict → Dict → Dict
  | [], _ => []
  | (key, v) :: d, old =>
    (key, if isSecretKey key = true ∧ v = placeholder then old.get key
      else preserveNested v (old.get key)) :: preserveEntries d old

end

/-- One round of the loop over `_SENSITIVE`. -/
def preserveField (old data : Dict) (field : String × String) : Dict :=
  let oldValue := ((walkParent old field.1).getD []).getOr field.2 (.str "")
  match data.lookup field.1 with
  | none => data.set field.1 (.dict [(field.2, oldValue)])
  | some (.dict parent) =>
    if Dict.get parent field.2 = .none ∨ Dict.get parent field.2 = placeholder then
      data.set field.1 (.dict (Dict.set parent field.2 oldValue))
    else data
  | some _ => data

/-- `_SERVER_OWNED_WEB_FIELDS`. -/
def serverOwnedWebFields : List String :=
  ["password", "password_hash", "secret_key", "session_version"]

/-- The fields of the section `web` that are taken over where they are missing. -/
def keptWebFields : List String :=
  ["secure_cookie", "hsts_seconds", "login_max_failures", "login_lock_seconds",
   "login_window_seconds", "session_max_age_seconds", "webauthn_rp_id", "webauthn_origin",
   "allowed_hosts", "local_browse_roots", "trusted_proxy_ips"]

/-- The section `web` with the fields of the server, and with those that older clients leave
out. -/
def preserveWeb (oldWeb web : Dict) : Dict :=
  keptWebFields.foldl
    (fun w key => if oldWeb.has key then setDefault w key (oldWeb.get key) else w)
    (serverOwnedWebFields.foldl (fun w key => w.set key (oldWeb.getOr key (.str ""))) web)

/-- The section `paths`. -/
def preservePaths (old data : Dict) : Dict :=
  let data := setDefault data "paths" (.dict [])
  match old.get "paths", data.get "paths" with
  | .dict oldPaths, .dict paths =>
    data.set "paths" (.dict (oldPaths.foldl (fun d e => setDefault d e.1 e.2) paths))
  | _, _ => data

/-- The file of the key in the section `notifications`. -/
def preserveKeyFile (old data : Dict) : Dict :=
  match (asDict (old.get "notifications")).bind fun n => asDict (n.get "apns") with
  | some oldApns =>
    if oldApns.has "key_file" then
      let data := setDefault data "notifications" (.dict [])
      match data.get "notifications" with
      | .dict notifications =>
        let notifications := setDefault notifications "apns" (.dict [])
        match notifications.get "apns" with
        | .dict apns =>
          data.set "notifications" (.dict (notifications.set "apns"
            (.dict (setDefault apns "key_file" (oldApns.get "key_file")))))
        | _ => data.set "notifications" (.dict notifications)
      | _ => data
    else data
  | none => data

/-- `_preserve_sensitive`: the new configuration with what it takes over from the old one. -/
def preserveSensitive (data old : Dict) : Dict :=
  let data := sensitiveFields.foldl (preserveField old) (preserveEntries data old)
  let data := setDefault data "web" (.dict [])
  match data.get "web" with
  | .dict web =>
    let oldWeb := (asDict (old.get "web")).getD []
    preserveKeyFile old (preservePaths old (data.set "web" (.dict (preserveWeb oldWeb web))))
  | _ => data

/-! ### What the walk finds -/

theorem lookup_preserveEntries (d old : Dict) (k : String) :
    (preserveEntries d old).lookup k
      = (d.lookup k).map fun v =>
          if isSecretKey k = true ∧ v = placeholder then old.get k
          else preserveNested v (old.get k) := by
  induction d with
  | nil => rfl
  | cons e d ih =>
    obtain ⟨key, v⟩ := e
    rw [preserveEntries, List.lookup_cons, List.lookup_cons]
    by_cases hk : k = key
    · subst hk
      simp
    · rw [beq_false_of_ne hk]
      exact ih

theorem getElem?_preserveItems (xs ys : List Value) (n : Nat) :
    (preserveItems xs ys)[n]?
      = xs[n]?.map fun x => (ys[n]?).elim x (preserveNested x) := by
  induction xs generalizing ys n with
  | nil => cases ys <;> rfl
  | cons x xs ih =>
    cases ys with
    | nil =>
      rw [preserveItems, List.getElem?_nil]
      · exact Option.map_id'.symm
      · rintro _ _ _ _ _ h
        cases h
    | cons y ys =>
      cases n with
      | zero => rfl
      | succ n => exact ih ys n

/-- What is no mapping and no list is left as it is. -/
theorem preserveNested_eq_placeholder {v old : Value} (h : preserveNested v old = placeholder) :
    v = placeholder := by
  cases v with
  | list xs =>
    cases old with
    | list ys => cases h
    | _ => exact h
  | dict d =>
    cases old with
    | dict d' => cases h
    | _ => exact h
  | _ => exact h

/-! ### The view of the fields that are hidden first -/

/-- How the view shows a value under its key. -/
def shown (key : String) (v : Value) : Value :=
  if isHidden key v then placeholder else redactNested v

theorem redactEntries_set {d : Dict} {k : String} {v w : Value} (hv : d.lookup k = some v)
    (h : shown k w = shown k v) : redactEntries (d.set k w) = redactEntries d := by
  induction d with
  | nil => cases hv
  | cons x d ih =>
    obtain ⟨key, u⟩ := x
    by_cases hk : key = k
    · subst hk
      have hu : u = v := by simpa using hv
      rw [Dict.set, if_pos rfl, redactEntries, redactEntries]
      have hshown : shown key w = shown key u := by rw [hu, h]
      exact congrArg (fun t => (key, t) :: redactEntries d) hshown
    · rw [List.lookup_cons, beq_false_of_ne (Ne.symm hk)] at hv
      rw [Dict.set, if_neg hk, redactEntries, redactEntries, ih hv]

theorem isBlankValue_of_truthy {v : Value} (h : truthy v = true) : isBlankValue v = false := by
  rw [isBlankValue, decide_eq_false_iff_not]
  rintro (rfl | rfl)
  · cases h
  · simp [truthy] at h

theorem lookup_of_get {d : Dict} {key : String} {v : Value} (h : d.get key = v) (hv : v ≠ .none) :
    d.lookup key = some v := by
  rw [Dict.get] at h
  cases hlookup : d.lookup key with
  | none =>
    rw [hlookup] at h
    exact absurd h.symm hv
  | some w =>
    rw [hlookup] at h
    exact congrArg some h

theorem redactEntries_redactField (d : Dict) {field : String × String}
    (hfield : field ∈ sensitiveFields) :
    redactEntries (redactField d field) = redactEntries d := by
  have hnames : isSecretKey field.1 = false ∧ isSecretKey field.2 = true := by
    revert field
    decide +kernel
  rw [redactField]
  cases hparent : walkParent d field.1 with
  | none => rfl
  | some parent =>
    dsimp only
    split_ifs with htruthy
    · have hlookup : d.lookup field.1 = some (.dict parent) :=
        lookup_of_get (eq_dict_of_asDict hparent) (by simp)
      have hblank : isBlankValue (parent.get field.2) = false := isBlankValue_of_truthy htruthy
      have hvalue : parent.lookup field.2 = some (parent.get field.2) :=
        lookup_of_get rfl fun h => by simp [h, isBlankValue] at hblank
      have hinner : redactEntries (parent.set field.2 placeholder) = redactEntries parent := by
        refine redactEntries_set hvalue ?_
        rw [shown, shown, isHidden, isHidden, hnames.2, hblank]
        rfl
      refine redactEntries_set hlookup ?_
      rw [shown, shown, isHidden, isHidden, hnames.1, Bool.false_and, Bool.false_and, redactNested,
        redactNested, hinner]
    · rfl

/-- The fields that are hidden first have secret names, so that they are hidden anyway. -/
theorem redactConfig_eq (data : Dict) : redactConfig data none = redactEntries data := by
  have hfold : ∀ (fields : List (String × String)) (d : Dict), (∀ f ∈ fields, f ∈ sensitiveFields) →
      redactEntries (fields.foldl redactField d) = redactEntries d := by
    intro fields
    induction fields with
    | nil => exact fun _ _ => rfl
    | cons f fields ih =>
      intro d hfields
      rw [List.foldl_cons, ih _ fun g hg => hfields g (List.mem_cons_of_mem _ hg)]
      exact redactEntries_redactField d (hfields f (by simp))
  exact hfold sensitiveFields data fun f hf => hf

/-! ### An unchanged view -/

mutual

theorem preserveNested_redactNested : (v : Value) → v.wellFormed = true →
    preserveNested (redactNested v) v = v
  | .list xs, h => congrArg Value.list (preserveItems_redactItems xs h)
  | .dict d, h => by
    have hd := wellFormed_dict_iff.mp h
    have hget : ∀ x ∈ d, Dict.get d x.1 = x.2 := fun x hx =>
      Dict.get_of_lookup (Dict.lookup_of_nodup hd.2 hx)
    exact congrArg Value.dict
      (preserveEntries_redactEntries d d hget (wellFormedEntries_iff.mpr hd.1))
  | .none, _ => rfl
  | .bool _, _ => rfl
  | .int _, _ => rfl
  | .float _, _ => rfl
  | .str _, _ => rfl

theorem preserveItems_redactItems : (xs : List Value) → wellFormedItems xs = true →
    preserveItems (redactItems xs) xs = xs
  | [], _ => rfl
  | x :: xs, h => by
    have hx : (x.wellFormed && wellFormedItems xs) = true := h
    rw [Bool.and_eq_true] at hx
    rw [redactItems, preserveItems, preserveNested_redactNested x hx.1,
      preserveItems_redactItems xs hx.2]

theorem preserveEntries_redactEntries : (sub d : Dict) → (∀ x ∈ sub, d.get x.1 = x.2) →
    wellFormedEntries sub = true → preserveEntries (redactEntries sub) d = sub
  | [], _, _, _ => rfl
  | (key, v) :: sub, d, hget, h => by
    have hv : (v.wellFormed && wellFormedEntries sub) = true := h
    rw [Bool.and_eq_true] at hv
    have hkey : d.get key = v := hget (key, v) (by simp)
    have hrest : preserveEntries (redactEntries sub) d = sub :=
      preserveEntries_redactEntries sub d (fun x hx => hget x (List.mem_cons_of_mem _ hx)) hv.2
    rw [redactEntries, preserveEntries, hrest, hkey]
    by_cases hhidden : isHidden key v = true
    · rw [if_pos hhidden, if_pos ⟨isSecretKey_of_isHidden hhidden, rfl⟩]
    · rw [if_neg hhidden, if_neg, preserveNested_redactNested v hv.1]
      rintro ⟨hname, hsame⟩
      have hv : v = placeholder := redactNested_eq_placeholder hsame
      refine hhidden ?_
      rw [isHidden, hname, hv]
      decide

end

/-- The walk gives a configuration back from its view. -/
theorem preserveEntries_redactConfig {data : Dict} (h : (Value.dict data).wellFormed = true) :
    preserveEntries (redactConfig data none) data = data := by
  rw [redactConfig_eq]
  exact Value.dict.inj (preserveNested_redactNested (.dict data) h)

/-! ### What is put in -/

/-- The configuration has the sections and the fields that the function puts in. -/
structure HasSections (d : Dict) : Prop where
  pbs : d.has "pbs" = true
  password : ∀ pbs, d.get "pbs" = .dict pbs → Dict.has pbs "password" = true
  web : d.has "web" = true
  serverOwned : ∀ web, d.get "web" = .dict web → ∀ k ∈ serverOwnedWebFields, Dict.has web k = true
  paths : ∀ web, d.get "web" = .dict web → d.has "paths" = true

theorem set_same {d : Dict} {key : String} {v : Value} (h : d.lookup key = some v) :
    d.set key v = d := by
  induction d with
  | nil => cases h
  | cons x d ih =>
    obtain ⟨k, w⟩ := x
    by_cases hk : k = key
    · subst hk
      have hw : w = v := by simpa using h
      rw [Dict.set, if_pos rfl, hw]
    · rw [List.lookup_cons, beq_false_of_ne (Ne.symm hk)] at h
      rw [Dict.set, if_neg hk, ih h]

theorem set_getOr {d : Dict} {key : String} (h : d.has key = true) (v : Value) :
    d.set key (d.getOr key v) = d := by
  obtain ⟨w, hw⟩ := Option.isSome_iff_exists.mp h
  refine set_same ?_
  rw [Dict.getOr, hw, Option.getD_some]

theorem setDefault_of_has {d : Dict} {key : String} (h : d.has key = true) (v : Value) :
    setDefault d key v = d := if_pos h

theorem foldl_same {α : Type} {f : Dict → α → Dict} {xs : List α} {d : Dict}
    (h : ∀ x ∈ xs, f d x = d) : xs.foldl f d = d := by
  induction xs with
  | nil => rfl
  | cons x xs ih =>
    rw [List.foldl_cons, h x (by simp)]
    exact ih fun y hy => h y (List.mem_cons_of_mem _ hy)

theorem has_of_mem {d : Dict} {x : String × Value} (h : x ∈ d) : d.has x.1 = true := by
  rw [Dict.has, List.lookup_isSome_iff]
  exact ⟨x, h, by simp⟩

theorem lookup_of_has {d : Dict} {key : String} (h : d.has key = true) :
    d.lookup key = some (d.get key) := by
  obtain ⟨v, hv⟩ := Option.isSome_iff_exists.mp h
  rw [Dict.get, hv, Option.getD_some]

theorem preserveField_same {d : Dict} {name field : String} (hname : d.has name = true)
    (hfield : ∀ part, d.get name = .dict part → Dict.has part field = true) :
    preserveField d d (name, field) = d := by
  have hlookup := lookup_of_has hname
  rw [preserveField, hlookup]
  cases hpart : d.get name with
  | dict part =>
    rw [hpart] at hlookup
    have hparent : walkParent d name = some part := by rw [walkParent, hpart, asDict]
    dsimp only
    split_ifs with hmissing
    · rw [hparent, Option.getD_some, set_getOr (hfield part hpart)]
      exact set_same hlookup
    · rfl
  | _ => rfl

theorem preserveWeb_same {web : Dict} (h : ∀ k ∈ serverOwnedWebFields, web.has k = true) :
    preserveWeb web web = web := by
  have hserver : serverOwnedWebFields.foldl
      (fun (w : Dict) (key : String) => w.set key (web.getOr key (.str ""))) web = web :=
    foldl_same fun k hk => set_getOr (h k hk) _
  rw [preserveWeb, hserver]
  refine foldl_same fun k _ => ?_
  split_ifs with hhas
  · exact setDefault_of_has hhas _
  · rfl

theorem preservePaths_same {d : Dict} (h : d.has "paths" = true) : preservePaths d d = d := by
  rw [preservePaths, setDefault_of_has h]
  cases hpaths : d.get "paths" with
  | dict paths =>
    have hsame : paths.foldl (fun (w : Dict) (x : String × Value) => setDefault w x.1 x.2) paths
        = paths :=
      foldl_same fun x hx => setDefault_of_has (has_of_mem hx) _
    dsimp only
    rw [hsame]
    refine set_same ?_
    rw [lookup_of_has h, hpaths]
  | _ => rfl

theorem preserveKeyFile_same (d : Dict) : preserveKeyFile d d = d := by
  rw [preserveKeyFile]
  cases hapns : (asDict (d.get "notifications")).bind fun n => asDict (n.get "apns") with
  | none => rfl
  | some apns =>
    obtain ⟨part, hpart, hfile⟩ := Option.bind_eq_some_iff.mp hapns
    have hpart := eq_dict_of_asDict hpart
    have hfile := eq_dict_of_asDict hfile
    have houter := lookup_of_get hpart (by simp)
    have hinner := lookup_of_get hfile (by simp)
    have hnotifications : d.has "notifications" = true := by
      rw [Dict.has, houter, Option.isSome_some]
    have happns : part.has "apns" = true := by rw [Dict.has, hinner, Option.isSome_some]
    dsimp only
    split_ifs with hhas
    · rw [setDefault_of_has hnotifications, hpart]
      dsimp only
      rw [setDefault_of_has happns, hfile]
      dsimp only
      rw [setDefault_of_has hhas, set_same hinner, set_same houter]
    · rfl

theorem preserveSensitive_of_hasSections {d : Dict} (hd : (Value.dict d).wellFormed = true)
    (h : HasSections d) : preserveSensitive (redactConfig d none) d = d := by
  have hfields : sensitiveFields.foldl (preserveField d) d = d := by
    refine foldl_same fun field hfield => ?_
    have hcases : (field.1 = "web" ∧ field.2 ∈ serverOwnedWebFields) ∨
        field = ("pbs", "password") := by
      revert field
      decide
    obtain ⟨name, key⟩ := field
    rcases hcases with ⟨rfl, hkey⟩ | heq
    · exact preserveField_same h.web fun web hweb => h.serverOwned web hweb key hkey
    · obtain ⟨rfl, rfl⟩ := Prod.mk.inj heq
      exact preserveField_same h.pbs h.password
  rw [preserveSensitive, preserveEntries_redactConfig hd, hfields]
  dsimp only
  rw [setDefault_of_has h.web]
  cases hweb : d.get "web" with
  | dict web =>
    have hlookup := lookup_of_get hweb (by simp)
    rw [asDict, Option.getD_some]
    dsimp only
    rw [preserveWeb_same (h.serverOwned web hweb), set_same hlookup,
      preservePaths_same (h.paths web hweb), preserveKeyFile_same]
  | _ => rfl

theorem has_set (d : Dict) (key : String) (v : Value) {k : String} (h : k = key ∨ d.has k = true) :
    (d.set key v).has k = true := by
  rw [Dict.has, Dict.lookup_set]
  by_cases hk : k = key
  · rw [if_pos hk, Option.isSome_some]
  · rw [if_neg hk]
    exact h.resolve_left hk

theorem has_setDefault (d : Dict) (key : String) (v : Value) {k : String}
    (h : k = key ∨ d.has k = true) : (setDefault d key v).has k = true := by
  rw [setDefault]
  split_ifs with hhas
  · rcases h with rfl | h
    · exact hhas
    · exact h
  · exact has_set d key v h

theorem lookup_set_ne (d : Dict) {key k : String} (v : Value) (h : k ≠ key) :
    (d.set key v).lookup k = d.lookup k := by
  rw [Dict.lookup_set, if_neg h]

theorem lookup_setDefault_ne (d : Dict) {key k : String} (v : Value) (h : k ≠ key) :
    (setDefault d key v).lookup k = d.lookup k := by
  rw [setDefault]
  split_ifs
  · rfl
  · exact lookup_set_ne d v h

/-- A loop that puts something into a mapping at every round. -/
theorem has_foldl {α : Type} {f : Dict → α → Dict} {xs : List α} {d : Dict} {k : String}
    (hf : ∀ d x, Dict.has d k = true → Dict.has (f d x) k = true) (h : d.has k = true) :
    (xs.foldl f d).has k = true := by
  induction xs generalizing d with
  | nil => exact h
  | cons x xs ih => exact ih (hf d x h)

theorem has_preserveWeb (oldWeb web : Dict) {k : String} (hk : k ∈ serverOwnedWebFields) :
    (preserveWeb oldWeb web).has k = true := by
  rw [preserveWeb]
  refine has_foldl (fun w key hw => ?_) ?_
  · split_ifs
    · exact has_setDefault w key _ (Or.inr hw)
    · exact hw
  · have hset : ∀ (fields : List String) (w : Dict), (k ∈ fields ∨ w.has k = true) →
        (fields.foldl (fun (w : Dict) (key : String) => w.set key (oldWeb.getOr key (.str "")))
          w).has k = true := by
      intro fields
      induction fields with
      | nil => exact fun w hw => hw.resolve_left (by simp)
      | cons f fields ih =>
        intro w hw
        refine ih _ ?_
        rcases hw with hmem | hw
        · rcases List.mem_cons.mp hmem with rfl | hmem
          · exact Or.inr (has_set _ _ _ (Or.inl rfl))
          · exact Or.inl hmem
        · exact Or.inr (has_set _ _ _ (Or.inr hw))
    exact hset _ web (Or.inl hk)

theorem lookup_preservePaths (old d : Dict) {k : String} (h : k ≠ "paths") :
    (preservePaths old d).lookup k = d.lookup k := by
  rw [preservePaths]
  split
  · rw [lookup_set_ne _ _ h, lookup_setDefault_ne _ _ h]
  · exact lookup_setDefault_ne _ _ h

theorem has_preservePaths (old d : Dict) : (preservePaths old d).has "paths" = true := by
  rw [preservePaths]
  split
  · exact has_set _ _ _ (Or.inl rfl)
  · exact has_setDefault _ _ _ (Or.inl rfl)

theorem lookup_preserveKeyFile (old d : Dict) {k : String} (h : k ≠ "notifications") :
    (preserveKeyFile old d).lookup k = d.lookup k := by
  rw [preserveKeyFile]
  split
  · split_ifs
    · dsimp only
      split
      · split <;> rw [lookup_set_ne _ _ h, lookup_setDefault_ne _ _ h]
      · exact lookup_setDefault_ne _ _ h
    · rfl
  · rfl

theorem preserveField_has (old d : Dict) (name key : String) :
    (preserveField old d (name, key)).has name = true ∧
      ∀ part, (preserveField old d (name, key)).get name = .dict part →
        Dict.has part key = true := by
  rw [preserveField]
  dsimp only
  cases hlookup : d.lookup name with
  | none =>
    refine ⟨has_set _ _ _ (Or.inl rfl), fun part hpart => ?_⟩
    rw [Dict.get_set_self] at hpart
    rw [← Value.dict.inj hpart, Dict.has]
    simp
  | some v =>
    have hhas : d.has name = true := by rw [Dict.has, hlookup, Option.isSome_some]
    cases v with
    | dict parent =>
      dsimp only
      split_ifs with hmissing
      · refine ⟨has_set _ _ _ (Or.inl rfl), fun part hpart => ?_⟩
        rw [Dict.get_set_self] at hpart
        rw [← Value.dict.inj hpart]
        exact has_set _ _ _ (Or.inl rfl)
      · refine ⟨hhas, fun part hpart => ?_⟩
        rw [Dict.get_of_lookup hlookup] at hpart
        cases hpart
        rw [Dict.has]
        cases hkey : parent.lookup key with
        | some w => rfl
        | none =>
          refine absurd (Or.inl ?_) hmissing
          rw [Dict.get, hkey, Option.getD_none]
    | _ =>
      refine ⟨hhas, fun part hpart => ?_⟩
      rw [Dict.get_of_lookup hlookup] at hpart
      cases hpart

theorem get_eq_of_lookup_eq {d d' : Dict} {k : String} (h : d.lookup k = d'.lookup k) :
    d.get k = d'.get k := by rw [Dict.get, Dict.get, h]

theorem has_eq_of_lookup_eq {d d' : Dict} {k : String} (h : d.lookup k = d'.lookup k) :
    d.has k = d'.has k := by rw [Dict.has, Dict.has, h]

/-- The result has the sections and the fields, whatever is submitted. -/
theorem hasSections_preserveSensitive (d old : Dict) : HasSections (preserveSensitive d old) := by
  obtain ⟨before, hbefore⟩ : ∃ before, sensitiveFields.foldl (preserveField old)
      (preserveEntries d old) = preserveField old before ("pbs", "password") := ⟨_, rfl⟩
  obtain ⟨hpbs, hpassword⟩ := preserveField_has old before "pbs" "password"
  rw [preserveSensitive, hbefore]
  generalize preserveField old before ("pbs", "password") = d at hpbs hpassword
  dsimp only
  have hweb : (setDefault d "web" (.dict [])).has "web" = true := has_setDefault _ _ _ (Or.inl rfl)
  have hsame : (setDefault d "web" (.dict [])).lookup "pbs" = d.lookup "pbs" :=
    lookup_setDefault_ne d _ (by decide)
  rw [← has_eq_of_lookup_eq hsame] at hpbs
  rw [← get_eq_of_lookup_eq hsame] at hpassword
  generalize setDefault d "web" (.dict []) = d at hpbs hpassword hweb
  clear hsame
  cases hsection : d.get "web" with
  | dict web =>
    dsimp only
    generalize hnew : preserveWeb ((asDict (old.get "web")).getD []) web = newWeb
    have hlater : ∀ k, k ≠ "paths" → k ≠ "notifications" →
        (preserveKeyFile old (preservePaths old (d.set "web" (.dict newWeb)))).lookup k
          = (d.set "web" (.dict newWeb)).lookup k := by
      intro k hk hk'
      rw [lookup_preserveKeyFile _ _ hk', lookup_preservePaths _ _ hk]
    have hafter := hlater "pbs" (by decide) (by decide)
    rw [lookup_set_ne d _ (by decide)] at hafter
    have hwebAfter := hlater "web" (by decide) (by decide)
    rw [Dict.lookup_set, if_pos rfl] at hwebAfter
    have hserver : ∀ part, (preserveKeyFile old (preservePaths old
        (d.set "web" (.dict newWeb)))).get "web" = .dict part →
        ∀ k ∈ serverOwnedWebFields, Dict.has part k = true := by
      intro part hpart k hk
      rw [Dict.get_of_lookup hwebAfter] at hpart
      rw [← Value.dict.inj hpart, ← hnew]
      exact has_preserveWeb _ _ hk
    refine ⟨?_, ?_, ?_, hserver, fun _ _ => ?_⟩
    · rw [has_eq_of_lookup_eq hafter]
      exact hpbs
    · rw [get_eq_of_lookup_eq hafter]
      exact hpassword
    · rw [Dict.has, hwebAfter, Option.isSome_some]
    · rw [has_eq_of_lookup_eq (lookup_preserveKeyFile old _ (by decide))]
      exact has_preservePaths _ _
  | _ =>
    refine ⟨hpbs, hpassword, hweb, fun web h => ?_, fun web h => ?_⟩
    · rw [hsection] at h
      cases h
    · rw [hsection] at h
      cases h

end RcloneSync
