/-
RcloneSync/NotificationKeys.lean

The keys under which alerts enter the push outbox: `_push_context` and
`notification_dedupe_key` of push_notifications.py.

A key is made from the fields of the alert's context that say which run, pair and slot it is
about.  But the context keeps three fields only (job, run and definition), so the pair, the
pairs and the slot never reach the key, and two alerts of one run have the same key whatever
pairs they are about.  An alert without a run is told apart by its text and by the five minutes
in which it comes.

Main result (`keys_tell_apart_iff`): the keys of two alerts of one event and run are right
exactly where the alerts are about the same pairs and slot, or, if they carry no run, where the
text and the time tell the same as the pairs and the slot.

SHA-256 and the masking of command lines are parameters.
-/
import RcloneSync.JsonRoundTrip
import RcloneSync.PushOutbox

namespace RcloneSync

open Py

/-! ### Alerts -/

/-- What the keys take from outside. -/
structure PushEnv where
  /-- `hashlib.sha256(text.encode()).hexdigest()` -/
  sha256hex : String → String
  /-- `redact_command_text` -/
  redact : String → String
  /-- `push_server_id()` -/
  serverId : Value

/-- The arguments of `notify`. -/
structure Alert where
  event : String
  title : String
  message : String
  extra : Dict

/-- `EVENTS`; `notify` ignores every other event. -/
def notificationEvents : List String :=
  ["sync_started", "sync_ok", "sync_error", "conflict", "mount_check_failed", "cancelled",
    "pair_overdue", "restore_test_ok", "restore_test_error", "restore_test_warning",
    "anomaly_blocked", "recovery_ready", "recovery_error"]

/-- `source.get(key, extra.get(key))`, where `source` is the summary of the alert, if it has
one. -/
def Alert.field (a : Alert) (key : String) : Value :=
  let source := (asDict (Dict.get a.extra "summary")).getD a.extra
  (source.lookup key).getD (Dict.get a.extra key)

/-! ### The key of an alert -/

def sensitiveContextKeys : List String :=
  ["authorization", "cookie", "credential", "credentials", "password", "private_key", "secret",
    "token"]

/-- `_safe_context`, with the levels that may still be entered. -/
def safeContext (env : PushEnv) : Nat → Value → Value
  | 0, _ => .none
  | _ + 1, .str text => .str (takeText 500 (env.redact text))
  | levels + 1, .list items => .list ((items.take 20).map (safeContext env levels))
  | levels + 1, .dict entries => .dict <| (entries.take 30).foldl
      (fun result e =>
        let key := takeText 80 e.1
        if sensitiveContextKeys.contains (casefold key) then result
        else Dict.set result key (safeContext env levels e.2)) []
  | _ + 1, v => v

/-- `value in (None, "", [])`. -/
def blankField : Value → Bool
  | .none => true
  | .str text => text = ""
  | .list items => items.isEmpty
  | _ => false

/-- The fields that the context keeps. -/
def runFields : List String := ["job_id", "run_id", "definition_id"]

/-- The fields that a key asks for. -/
def identityFields : List String :=
  ["job_id", "run_id", "definition_id", "scheduled_slot", "pair", "pairs"]

/-- A field of the alert that is kept. -/
def Alert.kept (env : PushEnv) (a : Alert) (key : String) : Option (String × Value) :=
  if blankField (a.field key) then none else some (key, safeContext env 4 (a.field key))

/-- `_push_context`. -/
def pushContext (env : PushEnv) (a : Alert) : Dict :=
  runFields.filterMap (a.kept env) ++ [("server_id", env.serverId)]

/-- `identity`, before the text takes its place. -/
def Alert.identity (env : PushEnv) (a : Alert) : Dict :=
  identityFields.filterMap fun key => ((pushContext env a).lookup key).map fun v => (key, v)

/-- `hashlib.sha256(f"{title}\0{message}".encode()).hexdigest()[:24]`. -/
def Alert.content (env : PushEnv) (a : Alert) : String :=
  takeText 24 (env.sha256hex (a.title ++ String.ofList [Char.ofNat 0] ++ a.message))

/-- `int(now_value // 300)`. -/
def bucket (now : Time) : Int := now.fdiv (300 * 1000000)

/-- `json.dumps(identity, ensure_ascii=False, sort_keys=True)`. -/
def keyJson : JsonStyle := ⟨false, ", ", ": ", true⟩

/-- What is digested. -/
def Alert.keyText (env : PushEnv) (now : Time) (a : Alert) : String :=
  let identity := a.identity env
  jsonDumps keyJson (.dict (if identity.isEmpty then
    [("content", .str (a.content env)), ("bucket", .int (bucket now))] else identity))

/-- `notification_dedupe_key`. -/
def notificationDedupeKey (env : PushEnv) (now : Time) (a : Alert) : String :=
  a.event ++ ":" ++ env.sha256hex (a.keyText env now)

/-- The key in the outbox. -/
def Alert.outboxKey (env : PushEnv) (now : Time) (a : Alert) : String :=
  takeText 256 (notificationDedupeKey env now a)

/-! ### The callers -/

/-- The alerts that the program sends, with the fields that each one carries. -/
inductive Emitted : Alert → Prop
  | syncEnded (event title message : String) (summary : Dict) :
      event ∈ ["sync_ok", "sync_error"] →
      Emitted ⟨event, title, message, [("summary", .dict summary)]⟩
  | anomalyBlocked (name message runId : String) :
      Emitted ⟨"anomaly_blocked", name ++ ": Sicherheitsstopp", message,
        [("run_id", .str runId), ("pair", .str name)]⟩
  | restoreTested (event title message : String) (names : List String) (run : Dict) :
      event ∈ ["restore_test_ok", "restore_test_error", "restore_test_warning"] →
      (∀ e ∈ run, e.1 ∈ ["job_id", "run_id"] ∧ e.2 ≠ .none) →
      Emitted ⟨event, title, message, ("pairs", .list (names.map .str)) :: run⟩
  | recovered (event title message : String) (jobId : Nat) (pair : Value) :
      event ∈ ["recovery_ready", "recovery_error"] →
      Emitted ⟨event, title, message, [("job_id", .int jobId), ("pair", pair)]⟩
  | uploaded (event title message uploadId : String) (pair : Value) :
      event ∈ ["recovery_ready", "recovery_error"] →
      Emitted ⟨event, title, message, [("pair", pair), ("vault_id", .str uploadId)]⟩
  | overdue (title message : String) (names : List String) :
      Emitted ⟨"pair_overdue", title, message, [("pairs", .list (names.map .str))]⟩
  | pruneFailed (message : String) (targets : List String) :
      Emitted ⟨"sync_error", "PBS-Aufräumen fehlgeschlagen", message,
        [("maintenance_failed", .bool true), ("targets", .list (targets.map .str))]⟩
  | bare (event title message : String) :
      event ∈ ["sync_started", "sync_ok", "sync_error", "cancelled"] →
      Emitted ⟨event, title, message, []⟩

/-- What an alert is about, besides its run. -/
def Alert.subject (a : Alert) : Value × Value × Value :=
  (a.field "pair", a.field "pairs", a.field "scheduled_slot")

/-- Alerts of one event and one run. -/
def SameRun (a b : Alert) : Prop :=
  a.event = b.event ∧ ∀ key ∈ runFields, a.field key = b.field key

/-- The alert says which run it belongs to. -/
def Alert.hasRun (a : Alert) : Bool := runFields.any fun key => !blankField (a.field key)

/-- The keys differ where the subjects do, and only there. -/
def KeysTellApart (env : PushEnv) (now now' : Time) (a b : Alert) : Prop :=
  (a.subject ≠ b.subject → a.outboxKey env now ≠ b.outboxKey env now') ∧
    (a.subject = b.subject → a.outboxKey env now = b.outboxKey env now')

/-! ### What a key depends on -/

section Keys

variable {env : PushEnv} {a b : Alert} {now now' : Time}

/-- The context of an alert is that of its run. -/
theorem pushContext_congr (h : SameRun a b) : pushContext env a = pushContext env b := by
  unfold pushContext
  congr 1
  apply List.filterMap_congr
  intro key hkey
  unfold Alert.kept
  rw [h.2 key hkey]

theorem identity_congr (h : SameRun a b) : a.identity env = b.identity env := by
  unfold Alert.identity
  rw [pushContext_congr h]

theorem hasRun_congr (h : SameRun a b) : a.hasRun = b.hasRun := by
  have hfields := h.2
  unfold runFields at hfields
  unfold Alert.hasRun runFields
  simp only [List.any_cons, List.any_nil, hfields, List.mem_cons, true_or, or_true]

/-- An alert without a run has nothing to be told apart by. -/
theorem identity_isEmpty : (a.identity env).isEmpty = !a.hasRun := by
  unfold Alert.identity pushContext Alert.hasRun runFields identityFields Alert.kept
  simp only [List.filterMap_cons, List.filterMap_nil, List.any_cons, List.any_nil]
  generalize a.field "job_id" = jobId
  generalize a.field "run_id" = runId
  generalize a.field "definition_id" = definitionId
  cases blankField jobId <;> cases blankField runId <;> cases blankField definitionId <;> rfl

/-- The text of an alert with a run does not depend on what the alert says besides. -/
theorem keyText_of_run (h : SameRun a b) (hrun : a.hasRun = true) :
    a.keyText env now = b.keyText env now' := by
  have hempty : (b.identity env).isEmpty = false := by
    rw [identity_isEmpty, ← hasRun_congr h, hrun]
    rfl
  unfold Alert.keyText
  dsimp only
  rw [identity_congr h, hempty]
  rfl

/-- The text of an alert without a run. -/
theorem keyText_of_content (hrun : a.hasRun = false) : a.keyText env now
    = jsonDumps plainJson
        (.dict [("bucket", .int (bucket now)), ("content", .str (a.content env))]) := by
  have hempty : (a.identity env).isEmpty = true := by
    rw [identity_isEmpty, hrun]
    rfl
  have horder : ¬ "content" < "bucket" := by decide
  unfold Alert.keyText
  dsimp only
  rw [hempty, if_pos rfl]
  simp only [jsonDumps, jsonMembers, keyJson, plainJson, if_true, Bool.false_eq_true, if_false,
    List.foldr_cons, List.foldr_nil, insertByKey, horder]

theorem keyText_content_iff (ha : a.hasRun = false) (hb : b.hasRun = false) :
    a.keyText env now = b.keyText env now' ↔
      a.content env = b.content env ∧ bucket now = bucket now' := by
  have hread : ∀ (n : Int) (text : String), jsonLoads (jsonDumps plainJson
      (.dict [("bucket", .int n), ("content", .str text)]))
        = some (.dict [("bucket", .int n), ("content", .str text)]) := fun n text =>
    jsonLoads_jsonDumps rfl
  rw [keyText_of_content ha, keyText_of_content hb]
  constructor
  · intro h
    have hloads := congrArg jsonLoads h
    rw [hread, hread] at hloads
    simp only [Option.some.injEq, Value.dict.injEq, List.cons.injEq, Prod.mk.injEq,
      Value.int.injEq, Value.str.injEq, true_and, and_true] at hloads
    exact ⟨hloads.2, hloads.1⟩
  · rintro ⟨hcontent, hbucket⟩
    rw [hcontent, hbucket]

/-- Keys are short enough for the outbox. -/
theorem outboxKey_eq (hlength : ∀ text, (env.sha256hex text).length = 64)
    (hevent : a.event ∈ notificationEvents) :
    a.outboxKey env now = a.event ++ ":" ++ env.sha256hex (a.keyText env now) := by
  have hshort : a.event.length ≤ 20 := by
    have hall : ∀ event ∈ notificationEvents, event.length ≤ 20 := by decide
    exact hall _ hevent
  have hfits : (notificationDedupeKey env now a).toList.length ≤ 256 := by
    unfold notificationDedupeKey
    rw [String.length_toList, String.length_append, String.length_append, hlength]
    have hcolon : ":".length = 1 := rfl
    omega
  unfold Alert.outboxKey takeText
  rw [List.take_of_length_le hfits, String.ofList_toList]
  rfl

/-- Keys of one event are the same where their texts are. -/
theorem outboxKey_eq_iff (hlength : ∀ text, (env.sha256hex text).length = 64)
    (hevent : a.event ∈ notificationEvents) (hsame : a.event = b.event)
    (hcollision : env.sha256hex (a.keyText env now) = env.sha256hex (b.keyText env now') →
      a.keyText env now = b.keyText env now') :
    a.outboxKey env now = b.outboxKey env now' ↔
      a.keyText env now = b.keyText env now' := by
  rw [outboxKey_eq hlength hevent, outboxKey_eq hlength (hsame ▸ hevent), hsame]
  constructor
  · exact fun h => hcollision (String.append_right_inj _ |>.mp h)
  · exact fun h => congrArg (fun text => b.event ++ ":" ++ env.sha256hex text) h

end Keys

/-! ### Main result -/

/-- **Where the keys tell two alerts of one event and run apart.** -/
theorem keys_tell_apart_iff (env : PushEnv) (now now' : Time) (a b : Alert)
    (hlength : ∀ text, (env.sha256hex text).length = 64)
    (hcollision : env.sha256hex (a.keyText env now) = env.sha256hex (b.keyText env now') →
      a.keyText env now = b.keyText env now')
    (hevent : a.event ∈ notificationEvents) (hsame : SameRun a b) :
    KeysTellApart env now now' a b ↔
      (a.hasRun = true → a.subject = b.subject) ∧
      (a.hasRun = false → (a.subject = b.subject ↔
        a.content env = b.content env ∧ bucket now = bucket now')) := by
  unfold KeysTellApart
  rw [Ne, Ne, outboxKey_eq_iff hlength hevent hsame.1 hcollision, not_imp_not]
  cases hrun : a.hasRun with
  | true =>
    have htext : a.keyText env now = b.keyText env now' := keyText_of_run hsame hrun
    constructor
    · exact fun h => ⟨fun _ => h.1 htext, fun hno => absurd hno.symm Bool.false_ne_true⟩
    · exact fun h => ⟨fun _ => h.1 rfl, fun _ => htext⟩
  | false =>
    have hother : b.hasRun = false := hasRun_congr hsame ▸ hrun
    rw [keyText_content_iff hrun hother]
    constructor
    · exact fun h => ⟨fun hno => absurd hno Bool.false_ne_true, fun _ => ⟨h.2, h.1⟩⟩
    · exact fun h => ⟨(h.2 rfl).mpr, (h.2 rfl).mp⟩

/-! ### Two pairs -/

/-- A digest that tells what is about the photographs from everything else. -/
def photoDigest (text : String) : String :=
  String.ofList (List.replicate 64
    (if containsText "Fotos" text || containsText "0000" text then '0' else '1'))

theorem length_photoDigest (text : String) : (photoDigest text).length = 64 := by
  unfold photoDigest
  rw [String.length_ofList, List.length_replicate]

def photoPush : PushEnv where
  sha256hex := photoDigest
  redact := id
  serverId := .none

def overdueAlert (name : String) : Alert where
  event := "pair_overdue"
  title := "1 Pair(s) ohne frischen erfolgreichen Lauf"
  message := name
  extra := [("pairs", .list [.str name])]

/-- Without a run, the key is made from the texts. -/
theorem keyText_overdue (name : String) :
    (overdueAlert name).keyText photoPush 0 = jsonDumps keyJson (.dict
      [("content", .str ((overdueAlert name).content photoPush)), ("bucket", .int (bucket 0))]) :=
  rfl

/-- Two overdue pairs are told apart, by their texts. -/
theorem keys_tell_apart_overdue :
    KeysTellApart photoPush 0 0 (overdueAlert "Fotos") (overdueAlert "Musik") := by
  have hsame : SameRun (overdueAlert "Fotos") (overdueAlert "Musik") := by
    refine ⟨rfl, fun key hkey => ?_⟩
    unfold runFields at hkey
    simp only [List.mem_cons, List.not_mem_nil, or_false] at hkey
    rcases hkey with rfl | rfl | rfl <;> rfl
  have hfotos : (overdueAlert "Fotos").content photoPush = "000000000000000000000000" := by
    decide +kernel
  have hmusik : (overdueAlert "Musik").content photoPush = "111111111111111111111111" := by
    decide +kernel
  have hdiffer : photoPush.sha256hex ((overdueAlert "Fotos").keyText photoPush 0)
      ≠ photoPush.sha256hex ((overdueAlert "Musik").keyText photoPush 0) := by
    rw [keyText_overdue, keyText_overdue, hfotos, hmusik]
    decide +kernel
  have hcontent : (overdueAlert "Fotos").content photoPush
      ≠ (overdueAlert "Musik").content photoPush := by
    rw [hfotos, hmusik]
    decide +kernel
  have hsubject : (overdueAlert "Fotos").subject ≠ (overdueAlert "Musik").subject := by
    decide +kernel
  exact (keys_tell_apart_iff photoPush 0 0 (overdueAlert "Fotos") (overdueAlert "Musik")
    length_photoDigest (fun h => absurd h hdiffer) (by decide) hsame).mpr
    ⟨fun h => absurd h (by decide +kernel), fun _ =>
      iff_of_false hsubject fun h => hcontent h.1⟩

def blockedAlert (name : String) : Alert where
  event := "anomaly_blocked"
  title := name ++ ": Sicherheitsstopp"
  message := "Destruktiver Lauf wurde quarantänisiert."
  extra := [("run_id", .str "r1"), ("pair", .str name)]

theorem blockedAlert_emitted (name : String) : Emitted (blockedAlert name) :=
  .anomalyBlocked name "Destruktiver Lauf wurde quarantänisiert." "r1"

/-- Two pairs that are blocked in one run share their key. -/
theorem blocked_pairs_share_key :
    ¬ ∀ (env : PushEnv) (now now' : Time) (a b : Alert),
      (∀ text, (env.sha256hex text).length = 64) →
      (env.sha256hex (a.keyText env now) = env.sha256hex (b.keyText env now') →
        a.keyText env now = b.keyText env now') →
      Emitted a → Emitted b → SameRun a b → KeysTellApart env now now' a b := by
  intro hclaim
  have hsame : SameRun (blockedAlert "Fotos") (blockedAlert "Musik") := by
    refine ⟨rfl, fun key hkey => ?_⟩
    unfold runFields at hkey
    simp only [List.mem_cons, List.not_mem_nil, or_false] at hkey
    rcases hkey with rfl | rfl | rfl <;> rfl
  have htext : (blockedAlert "Fotos").keyText photoPush 0
      = (blockedAlert "Musik").keyText photoPush 0 := keyText_of_run hsame (by decide +kernel)
  obtain ⟨hapart, -⟩ := hclaim photoPush 0 0 (blockedAlert "Fotos") (blockedAlert "Musik")
    length_photoDigest (fun _ => htext) (blockedAlert_emitted "Fotos")
    (blockedAlert_emitted "Musik") hsame
  have hevent : (blockedAlert "Fotos").event ∈ notificationEvents := by decide
  have hlength : ∀ text, (photoPush.sha256hex text).length = 64 := length_photoDigest
  have hkeys := outboxKey_eq_iff hlength hevent hsame.1 fun _ => htext
  exact hapart (by decide +kernel) (hkeys.mpr htext)

end RcloneSync
