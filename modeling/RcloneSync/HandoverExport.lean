/-
RcloneSync/HandoverExport.lean

The rescue inventory that a handover package takes along: `portable_inventory` of
`app/handover_rescue.py`, and what the import makes of it.

The export asks `validate_inventory` about each receipt on its own and leaves out the ones that
are refused.  What the validator checks of the inventory as a whole it does not ask: how many
data paths there are, how long their identities are, and whether an identifier occurs twice.
So an inventory passes exactly where these three are in order (`portable_valid_iff`).

Main result (`handover_round_trip`): a package opens to the payload it was made of, whatever
the receipts hold, and an envelope that opens has the values of a package that was made.
-/
import RcloneSync.HandoverPackage
import RcloneSync.JsonSize

namespace RcloneSync

open Py Base64

/-! ### Receipts for the inventory -/

/-- `pairs`: the configured pairs by identity, the last one of an identity. -/
def pairTable (pairs : List Value) : Dict :=
  (pairs.filterMap asDict).foldl
    (fun table pair => Dict.set table (pairIdentity pair) (.dict pair)) []

/-- The fields of a receipt that are taken along. -/
def exportedFields : List String :=
  ["id", "identity", "filename", "size", "sha256", "source_type", "device_name",
    "target_relative", "created_at", "completed_at"]

/-- `item`. -/
def exportItem (value : Dict) : Dict :=
  exportedFields.map (fun key => (key, Dict.get value key)) ++
    [("cloud", .bool (isRemoteTarget (Dict.textOr value "target_root" "")))]

def inventorySchema : Value := .str "sicherpfad-rescue-inventory-v1"

/-- The inventory of one receipt, for the check. -/
def singleInventory (item pair : Dict) : Dict :=
  [("rescue_inventory", .dict
    [("schema", inventorySchema),
     ("data_paths", .list
       [.dict [("identity", Dict.get item "identity"), ("name", Dict.get pair "name")]]),
     ("records", .list [.dict item])])]

/-- What becomes of a receipt. -/
inductive ReceiptFate
  | ignored
  | invalid
  | kept (item : Dict) (targetRoot : String)

/-- One turn of the loop of `portable_inventory`, for a file that holds a mapping. -/
def receiptFate (env : RescueEnv) (pairs : List Value) (value : Dict) :
    Except RescueError ReceiptFate :=
  match Dict.get (pairTable pairs) (Dict.textOr value "identity" "") with
  | .dict pair =>
    let root := Dict.textOr value "target_root" ""
    if pair.isEmpty ∨ pyEq (Dict.get value "status") (.str "ready") = false ∨
        Dict.get value "verified" ≠ .bool true then .ok .ignored
    else if root ≠ targetRoot pair ∧ root ≠ backupEndpoint pair then .ok .ignored
    else if (safeRelative (Dict.textOr value "target_relative" "")).isOk = false ∨
        (safeFilename (Dict.textOr value "filename" "")).isOk = false then .ok .invalid
    else
      match validateInventory env (singleInventory (exportItem value) pair) with
      | .ok _ => .ok (.kept (exportItem value) root)
      | .error (.handover _) => .ok .invalid
      | .error e => .error e
  | _ => .ok .ignored

/-- The state of the loop. -/
structure ExportState where
  items : List Dict
  /-- the targets of the exported receipts, with the identity of their data path -/
  hints : List (String × String)
  skippedInvalid : Nat

/-- One file of the receipts; `none` where it cannot be read or is no JSON. -/
def exportReceipt (env : RescueEnv) (pairs : List Value) (s : ExportState) (file : Option Value) :
    Except RescueError ExportState :=
  if maxRescueRecords ≤ s.items.length then
    .error (.handover "Zu viele Geräte-Dateien für eine Notfallakte")
  else
    match file with
    | some (.dict value) => do
      let fate ← receiptFate env pairs value
      match fate with
      | .ignored => .ok s
      | .invalid => .ok { s with skippedInvalid := s.skippedInvalid + 1 }
      | .kept item root => .ok { s with
          items := s.items ++ [item]
          hints := s.hints ++ [(pyStr (Dict.get item "identity"), root)] }
    | _ => .ok s

/-- The target of a data path, where its receipts agree about it. -/
def targetHint (includePaths : Bool) (hints : List (String × String)) (identity : String) :
    Value :=
  match ((hints.filter fun hint => hint.1 = identity).map Prod.snd).eraseDups with
  | [root] => if includePaths then .str root else .none
  | _ => .none

/-- The inventory of a finished loop. -/
def exportedInventory (pairs : List Value) (includePaths : Bool) (s : ExportState) : Dict :=
  [("schema", inventorySchema), ("records", .list (s.items.map .dict)),
   ("skipped_invalid", .int s.skippedInvalid),
   ("data_paths", .list ((pairTable pairs).map fun e =>
     .dict [("identity", .str e.1), ("name", .str (Dict.textOr ((asDict e.2).getD []) "name" "")),
       ("target_hint", targetHint includePaths s.hints e.1)])),
   ("credentials_included", .bool false), ("files_included", .bool false)]

/-- `portable_inventory`. -/
def portableInventory (env : RescueEnv) (pairs : List Value) (files : List (Option Value))
    (includePaths : Bool) : Except RescueError Dict := do
  let s ← files.foldlM (exportReceipt env pairs) ⟨[], [], 0⟩
  .ok (exportedInventory pairs includePaths s)

/-- The payload of `create_handover`. -/
def handoverPayload (createdAt recoveryPass : Value) (inventory : Dict) : Dict :=
  [("created_at", createdAt), ("recovery_pass", recoveryPass),
   ("rescue_inventory", .dict inventory),
   ("instructions", .list
     [.str "Dieses Paket enthält keine Anmeldedaten oder Cloud-Schlüssel.",
      .str "Passphrase getrennt und sicher an die bevollmächtigte Person übermitteln.",
      .str "Wiederherstellungen zuerst in einen getrennten Staging-Ordner durchführen."])]

/-! ### The parts of the validation -/

section Validation

variable {env : RescueEnv}

/-- The data paths are accepted one by one. -/
theorem validatePaths_iff {rows : List (String × Dict)}
    (hrows : ∀ r ∈ rows, Dict.get r.2 "identity" = .str r.1) (known : List RescuePath)
    (hknown : (known.map RescuePath.identity).Nodup) :
    (∃ out, validatePaths (rows.map fun r => .dict r.2) known = .ok out) ↔
      (∀ r ∈ rows, 1 ≤ r.1.length ∧ r.1.length ≤ 128) ∧
        (known.map RescuePath.identity ++ rows.map Prod.fst).Nodup := by
  induction rows generalizing known with
  | nil => simpa [validatePaths] using hknown
  | cons r rows ih =>
    obtain ⟨identity, row⟩ := r
    have hget : Dict.get row "identity" = .str identity := hrows _ List.mem_cons_self
    have hrest : ∀ r ∈ rows, Dict.get r.2 "identity" = .str r.1 := fun r hr =>
      hrows r (List.mem_cons_of_mem _ hr)
    simp only [List.map_cons, validatePaths, hget]
    by_cases hbad : identity.length < 1 ∨ 128 < identity.length ∨
        known.any (fun path => path.identity = identity) = true
    · rw [if_pos hbad]
      refine iff_of_false (fun ⟨out, h⟩ => by cases h) ?_
      rintro ⟨hbounds, hnodup⟩
      obtain ⟨hlow, hhigh⟩ := hbounds _ List.mem_cons_self
      rcases hbad with h | h | h
      · exact absurd hlow (not_le.mpr h)
      · exact absurd hhigh (not_le.mpr h)
      · obtain ⟨path, hpath, hsame⟩ := List.any_eq_true.mp h
        refine (List.nodup_append.mp hnodup).2.2 _ (List.mem_map_of_mem hpath) _
          List.mem_cons_self (of_decide_eq_true hsame)
    · rw [if_neg hbad]
      push Not at hbad
      obtain ⟨hlow, hhigh, hnew⟩ := hbad
      have hfresh : identity ∉ known.map RescuePath.identity := by
        intro hmem
        obtain ⟨path, hpath, rfl⟩ := List.mem_map.mp hmem
        exact hnew (List.any_eq_true.mpr ⟨path, hpath, decide_eq_true rfl⟩)
      rw [ih hrest _]
      · simp only [List.map_append, List.map_cons, List.map_nil, List.append_assoc,
          List.singleton_append, List.forall_mem_cons, hlow, hhigh, and_self, true_and]
      · rw [List.map_append]
        refine List.nodup_append.mpr ⟨hknown, List.nodup_singleton _, ?_⟩
        rintro a ha b hb rfl
        rw [List.mem_singleton.mp hb] at ha
        exact hfresh ha

/-- The identities of the accepted data paths. -/
theorem validatePaths_identities {rows : List (String × Dict)}
    (hrows : ∀ r ∈ rows, Dict.get r.2 "identity" = .str r.1) {known out : List RescuePath}
    (h : validatePaths (rows.map fun r => .dict r.2) known = .ok out) :
    out.map RescuePath.identity = known.map RescuePath.identity ++ rows.map Prod.fst := by
  induction rows generalizing known with
  | nil =>
    obtain rfl := Except.ok.inj h
    simp
  | cons r rows ih =>
    obtain ⟨identity, row⟩ := r
    have hget : Dict.get row "identity" = .str identity := hrows _ List.mem_cons_self
    simp only [List.map_cons, validatePaths, hget] at h
    by_cases hbad : identity.length < 1 ∨ 128 < identity.length ∨
        known.any (fun path => path.identity = identity) = true
    · rw [if_pos hbad] at h
      cases h
    · rw [if_neg hbad] at h
      rw [ih (fun r hr => hrows r (List.mem_cons_of_mem _ hr)) h]
      simp

/-- The identifier of a receipt. -/
def itemId (item : Dict) : String := Dict.textOr item "id" ""

/-- What stands before a file matters by its identifiers. -/
theorem validateRecord_eq (seen : List String) (identity : String) (item : Dict) :
    validateRecord env seen identity item =
      if itemId item ∈ seen then
        .error (.handover "Ungültige Geräte-Datei-ID in der Notfallakte")
      else validateRecord env [] identity item := by
  have hstep : ∀ seen, validateRecord env seen identity item =
      if isRescueName (itemId item) = false ∨ itemId item ∈ seen then
        .error (.handover "Ungültige Geräte-Datei-ID in der Notfallakte")
      else _ := fun _ => rfl
  rw [hstep seen, hstep []]
  by_cases hname : isRescueName (itemId item) = false
  · rw [if_pos (Or.inl hname), if_pos (Or.inl hname), ite_self]
  · by_cases hseen : itemId item ∈ seen
    · rw [if_pos (Or.inr hseen), if_pos hseen]
    · have hempty : ¬ (isRescueName (itemId item) = false ∨ itemId item ∈ ([] : List String)) := by
        simpa using hname
      rw [if_neg (not_or.mpr ⟨hname, hseen⟩), if_neg hseen, if_neg hempty]

theorem validateRecord_id {identity : String} {item : Dict} {file : RescueRow}
    (h : validateRecord env [] identity item = .ok file) : file.id = itemId item := by
  unfold validateRecord at h
  dsimp only at h
  split at h
  · cases h
  split at h
  · split at h
    · cases h
    split at h
    · split at h
      · cases h
      split at h
      · obtain ⟨name, -, h⟩ := bind_ok.mp h
        obtain ⟨relative, -, h⟩ := bind_ok.mp h
        obtain rfl := Except.ok.inj h
        rfl
      · cases h
    · cases h
  · cases h

/-- A receipt that passes the check on its own, in an inventory with these data paths. -/
def PassesAlone (env : RescueEnv) (identities : List String) (item : Dict) : Prop :=
  ∃ identity file, Dict.get item "identity" = .str identity ∧ identity ∈ identities ∧
    validateRecord env [] identity item = .ok file

/-- The files are accepted one by one. -/
theorem validateRecords_iff {known : List RescuePath} {items : List Dict}
    (hitems : ∀ item ∈ items, PassesAlone env (known.map RescuePath.identity) item)
    (clean : List RescueRow) (hclean : (clean.map RescueRow.id).Nodup) :
    (∃ out, validateRecords env known (items.map .dict) clean = .ok out) ↔
      (clean.map RescueRow.id ++ items.map itemId).Nodup := by
  induction items generalizing clean with
  | nil => simpa [validateRecords] using hclean
  | cons item items ih =>
    obtain ⟨identity, file, hget, hmem, hfile⟩ := hitems item List.mem_cons_self
    have hid := validateRecord_id hfile
    have hknown : known.any (fun path => path.identity = identity) = true := by
      obtain ⟨path, hpath, rfl⟩ := List.mem_map.mp hmem
      exact List.any_eq_true.mpr ⟨path, hpath, decide_eq_true rfl⟩
    have hstep : validateRecords env known ((item :: items).map .dict) clean =
        (do
          let file ← validateRecord env (clean.map RescueRow.id) identity item
          validateRecords env known (items.map .dict) (clean ++ [file])) := by
      simp only [List.map_cons, validateRecords, asDict, Option.elim_some, bind, Except.bind, hget,
        hknown, if_true]
    rw [hstep, validateRecord_eq]
    by_cases hseen : itemId item ∈ clean.map RescueRow.id
    · rw [if_pos hseen]
      refine iff_of_false ?_ fun hnodup => ?_
      · rintro ⟨out, h⟩
        cases h
      · exact (List.nodup_append.mp hnodup).2.2 _ hseen _ List.mem_cons_self rfl
    · rw [if_neg hseen, hfile]
      have hclean' : ((clean ++ [file]).map RescueRow.id).Nodup := by
        rw [List.map_append]
        refine List.nodup_append.mpr ⟨hclean, List.nodup_singleton _, ?_⟩
        rintro a ha b hb rfl
        rw [List.mem_singleton.mp hb] at ha
        exact hseen (hid ▸ ha)
      have hrest := ih (fun item hmem => hitems item (List.mem_cons_of_mem _ hmem)) _ hclean'
      show (∃ out, validateRecords env known (items.map .dict) (clean ++ [file]) = .ok out) ↔ _
      rw [hrest, List.map_append, List.append_assoc, List.map_cons, List.map_nil, hid]
      rfl

/-- The steps of a validation that succeeds. -/
theorem validateInventory_ok (env : RescueEnv) {package inventory : Dict}
    {paths records : List Value}
    (hget : Dict.get package "rescue_inventory" = .dict inventory)
    (hschema : Dict.get inventory "schema" = inventorySchema)
    (hpaths : Dict.get inventory "data_paths" = .list paths)
    (hrecords : Dict.get inventory "records" = .list records) {v : RescueInventory} :
    validateInventory env package = .ok v ↔
      paths.length ≤ 500 ∧ records.length ≤ maxRescueRecords ∧
        validatePaths paths [] = .ok v.dataPaths ∧
        validateRecords env v.dataPaths records [] = .ok v.records := by
  have hknown : pyEq (Dict.get inventory "schema") (.str "sicherpfad-rescue-inventory-v1")
      ≠ false := by
    rw [hschema]
    decide
  unfold validateInventory
  simp only [hget, asDict, Option.getD_some, if_neg hknown, hpaths, hrecords, asList]
  by_cases hlarge : 500 < paths.length ∨ maxRescueRecords < records.length
  · rw [if_pos hlarge]
    refine iff_of_false (fun h => by cases h) ?_
    rintro ⟨hfew, hsmall, -⟩
    exact hlarge.elim (not_lt.mpr hfew) (not_lt.mpr hsmall)
  · rw [if_neg hlarge]
    obtain ⟨hfew, hsmall⟩ := not_or.mp hlarge
    constructor
    · intro h
      obtain ⟨known, hvalid, h⟩ := bind_ok.mp h
      obtain ⟨clean, hclean, h⟩ := bind_ok.mp h
      obtain rfl := Except.ok.inj h
      exact ⟨not_lt.mp hfew, not_lt.mp hsmall, hvalid, hclean⟩
    · rintro ⟨-, -, hvalid, hclean⟩
      exact bind_ok.mpr ⟨_, hvalid, bind_ok.mpr ⟨_, hclean, rfl⟩⟩

theorem singleInventory_get (item pair : Dict) :
    Dict.get (singleInventory item pair) "rescue_inventory" = .dict
      [("schema", inventorySchema),
       ("data_paths", .list
         [.dict [("identity", Dict.get item "identity"), ("name", Dict.get pair "name")]]),
       ("records", .list [.dict item])] := rfl

/-- A receipt that is accepted on its own belongs to a data path that was named. -/
theorem single_ok {item pair : Dict} {v : RescueInventory}
    (h : validateInventory env (singleInventory item pair) = .ok v) :
    ∃ identity file, Dict.get item "identity" = .str identity ∧ identity ≠ "" ∧
      validateRecord env [] identity item = .ok file := by
  obtain ⟨-, -, hpaths, hrecords⟩ :=
    (validateInventory_ok env (singleInventory_get item pair) rfl rfl rfl).mp h
  have hrow : ∀ identity, Dict.get item "identity" = .str identity → identity ≠ "" := by
    rintro identity hget rfl
    have hnone : validatePaths [.dict [("identity", .str ""), ("name", Dict.get pair "name")]] []
        = .error (.handover "Ungültige Datenweg-ID in der Notfallakte") := rfl
    rw [hget, hnone] at hpaths
    cases hpaths
  simp only [validateRecords, asDict, Option.elim_some, bind, Except.bind] at hrecords
  cases hget : Dict.get item "identity" with
  | str identity =>
    rw [hget] at hrecords
    simp only at hrecords
    split at hrecords
    · cases hfile : validateRecord env (List.map RescueRow.id []) identity item with
      | error e =>
        rw [hfile] at hrecords
        cases hrecords
      | ok file => exact ⟨identity, file, rfl, hrow identity hget, hfile⟩
    · cases hrecords
  | _ =>
    rw [hget] at hrecords
    cases hrecords

end Validation

/-! ### What is exported -/

section Export

variable {env : RescueEnv} {pairs : List Value} {includePaths : Bool}

theorem mem_keys_of_get {d : Dict} {key : String} {v : Value} (h : Dict.get d key = v)
    (hv : v ≠ .none) : key ∈ d.map Prod.fst := by
  unfold Dict.get at h
  cases hlookup : d.lookup key with
  | none =>
    rw [hlookup] at h
    exact absurd h.symm hv
  | some w => exact List.mem_map_of_mem (f := Prod.fst) (Dict.mem_of_lookup hlookup)

/-- A receipt that is exported passes the check on its own. -/
theorem kept_passes {value item : Dict} {root : String}
    (h : receiptFate env pairs value = .ok (.kept item root)) :
    item = exportItem value ∧ PassesAlone env ((pairTable pairs).map Prod.fst) item := by
  unfold receiptFate at h
  split at h
  · rename_i pair hpair
    dsimp only at h
    split at h
    · cases Except.ok.inj h
    split at h
    · cases Except.ok.inj h
    split at h
    · cases Except.ok.inj h
    split at h
    · rename_i v hvalid
      obtain ⟨rfl, -⟩ := ReceiptFate.kept.inj (Except.ok.inj h)
      obtain ⟨identity, file, hget, hne, hfile⟩ := single_ok hvalid
      refine ⟨rfl, identity, file, hget, ?_, hfile⟩
      have hvalue : Dict.get value "identity" = .str identity := hget
      have htext : Dict.textOr value "identity" "" = identity := by
        unfold Dict.textOr
        rw [hvalue]
        have htruthy : truthy (.str identity) = true := decide_eq_true hne
        simp only [pyOr, htruthy, if_true, pyStr]
      rw [htext] at hpair
      exact mem_keys_of_get hpair (fun hno => by cases hno)
    · cases Except.ok.inj h
    · cases h
  · cases Except.ok.inj h

theorem wellFormed_get {d : Dict} (h : (Value.dict d).wellFormed = true) (key : String) :
    (Dict.get d key).wellFormed = true := by
  unfold Dict.get
  cases hlookup : d.lookup key with
  | none => rfl
  | some v => exact (wellFormed_dict_iff.mp h).1 _ (Dict.mem_of_lookup hlookup)

theorem wellFormed_exportItem {value : Dict} (h : (Value.dict value).wellFormed = true) :
    (Value.dict (exportItem value)).wellFormed = true := by
  rw [wellFormed_dict_iff]
  constructor
  · intro e he
    rcases List.mem_append.mp he with he | he
    · obtain ⟨key, -, rfl⟩ := List.mem_map.mp he
      exact wellFormed_get h key
    · rw [List.mem_singleton.mp he]
      rfl
  · have hkeys : (exportItem value).map Prod.fst = exportedFields ++ ["cloud"] := by
      unfold exportItem
      rw [List.map_append, List.map_map]
      rfl
    rw [hkeys]
    decide

/-- What the loop keeps. -/
structure ExportOk (env : RescueEnv) (pairs : List Value) (s : ExportState) : Prop where
  passes : ∀ item ∈ s.items, PassesAlone env ((pairTable pairs).map Prod.fst) item
  readable : ∀ item ∈ s.items, (Value.dict item).wellFormed = true
  few : s.items.length ≤ maxRescueRecords

theorem exportReceipt_ok {s t : ExportState} {file : Option Value} (hs : ExportOk env pairs s)
    (hfile : ∀ v, file = some v → v.wellFormed = true)
    (h : exportReceipt env pairs s file = .ok t) : ExportOk env pairs t := by
  unfold exportReceipt at h
  by_cases hfull : maxRescueRecords ≤ s.items.length
  · rw [if_pos hfull] at h
    cases h
  · rw [if_neg hfull] at h
    split at h
    · rename_i value
      obtain ⟨fate, hfate, h⟩ := bind_ok.mp h
      cases fate with
      | ignored =>
        obtain rfl := Except.ok.inj h
        exact hs
      | invalid =>
        obtain rfl := Except.ok.inj h
        exact ⟨hs.passes, hs.readable, hs.few⟩
      | kept item root =>
        obtain rfl := Except.ok.inj h
        obtain ⟨hitem, hpasses⟩ := kept_passes hfate
        refine ⟨?_, ?_, ?_⟩
        · intro item' hmem
          rcases List.mem_append.mp hmem with hmem | hmem
          · exact hs.passes item' hmem
          · rw [List.mem_singleton.mp hmem]
            exact hpasses
        · intro item' hmem
          rcases List.mem_append.mp hmem with hmem | hmem
          · exact hs.readable item' hmem
          · rw [List.mem_singleton.mp hmem, hitem]
            exact wellFormed_exportItem (hfile _ rfl)
        · show (s.items ++ [item]).length ≤ _
          rw [List.length_append, List.length_singleton]
          exact not_le.mp hfull
    · obtain rfl := Except.ok.inj h
      exact hs

theorem portableInventory_ok {files : List (Option Value)} {inventory : Dict}
    (hfiles : ∀ v, some v ∈ files → v.wellFormed = true)
    (h : portableInventory env pairs files includePaths = .ok inventory) :
    ∃ s, ExportOk env pairs s ∧ inventory = exportedInventory pairs includePaths s := by
  obtain ⟨s, hs, hinventory⟩ := bind_ok.mp h
  refine ⟨s, ?_, (Except.ok.inj hinventory).symm⟩
  have hloop : ∀ (files : List (Option Value)) (s t : ExportState),
      (∀ v, some v ∈ files → v.wellFormed = true) → ExportOk env pairs s →
      files.foldlM (exportReceipt env pairs) s = .ok t → ExportOk env pairs t := by
    intro files
    induction files with
    | nil =>
      intro s t _ hs h
      obtain rfl := Except.ok.inj h
      exact hs
    | cons file files ih =>
      intro s t hfiles hs h
      rw [List.foldlM_cons] at h
      obtain ⟨u, hu, h⟩ := bind_ok.mp h
      have hfile : ∀ v, file = some v → v.wellFormed = true := fun v hv =>
        hfiles v (hv ▸ List.mem_cons_self)
      exact ih u t (fun v hv => hfiles v (List.mem_cons_of_mem _ hv))
        (exportReceipt_ok hs hfile hu) h
  exact hloop files _ s hfiles ⟨fun _ hmem => absurd hmem List.not_mem_nil,
    fun _ hmem => absurd hmem List.not_mem_nil, Nat.zero_le _⟩ hs

/-- The identifiers of the receipts of an inventory. -/
def exportedIds (inventory : Dict) : List String :=
  ((asList (Dict.get inventory "records")).getD []).map fun v => itemId ((asDict v).getD [])

/-- What the validator asks of the inventory as a whole. -/
structure Portable (pairs : List Value) (inventory : Dict) : Prop where
  few : (pairTable pairs).length ≤ 500
  named : ∀ e ∈ pairTable pairs, 1 ≤ e.1.length ∧ e.1.length ≤ 128
  distinct : (exportedIds inventory).Nodup

theorem nodup_pairTable (pairs : List Value) : ((pairTable pairs).map Prod.fst).Nodup := by
  have hfold : ∀ (rows : List Dict) (table : Dict), (table.map Prod.fst).Nodup →
      ((rows.foldl (fun table pair => Dict.set table (pairIdentity pair) (.dict pair)) table).map
        Prod.fst).Nodup := by
    intro rows
    induction rows with
    | nil => exact fun _ htable => htable
    | cons pair rows ih => exact fun table htable => ih _ (nodup_set htable _ _)
  exact hfold _ [] List.nodup_nil

/-- The rows of the data paths, with their identities. -/
def exportedPaths (pairs : List Value) (includePaths : Bool) (s : ExportState) :
    List (String × Dict) :=
  (pairTable pairs).map fun e =>
    (e.1, [("identity", .str e.1), ("name", .str (Dict.textOr ((asDict e.2).getD []) "name" "")),
      ("target_hint", targetHint includePaths s.hints e.1)])

theorem exportedPaths_fst (pairs : List Value) (includePaths : Bool) (s : ExportState) :
    (exportedPaths pairs includePaths s).map Prod.fst = (pairTable pairs).map Prod.fst := by
  unfold exportedPaths
  rw [List.map_map]
  rfl

theorem exportedPaths_get (pairs : List Value) (includePaths : Bool) (s : ExportState) :
    ∀ r ∈ exportedPaths pairs includePaths s, Dict.get r.2 "identity" = .str r.1 := by
  intro r hr
  obtain ⟨e, -, rfl⟩ := List.mem_map.mp hr
  rfl

theorem exportedInventory_paths (pairs : List Value) (includePaths : Bool) (s : ExportState) :
    Dict.get (exportedInventory pairs includePaths s) "data_paths"
      = .list ((exportedPaths pairs includePaths s).map fun r => .dict r.2) := by
  unfold exportedPaths
  rw [List.map_map]
  rfl

theorem exportedIds_eq (pairs : List Value) (includePaths : Bool) (s : ExportState) :
    exportedIds (exportedInventory pairs includePaths s) = s.items.map itemId := by
  show ((s.items.map Value.dict).map fun v => itemId ((asDict v).getD [])) = _
  rw [List.map_map]
  rfl

/-- **An exported inventory is valid** where it is in order as a whole. -/
theorem portable_valid_iff {files : List (Option Value)} {inventory package : Dict}
    (hfiles : ∀ v, some v ∈ files → v.wellFormed = true)
    (h : portableInventory env pairs files includePaths = .ok inventory)
    (hget : Dict.get package "rescue_inventory" = .dict inventory) :
    (∃ v, validateInventory env package = .ok v) ↔ Portable pairs inventory := by
  obtain ⟨s, hs, rfl⟩ := portableInventory_ok hfiles h
  have hrows := exportedPaths_get pairs includePaths s
  have hkeys := exportedPaths_fst pairs includePaths s
  have hids := exportedIds_eq pairs includePaths s
  have hlength : ((exportedPaths pairs includePaths s).map fun r => Value.dict r.2).length
      = (pairTable pairs).length := by
    rw [List.length_map, exportedPaths, List.length_map]
  have hbounds : (∀ r ∈ exportedPaths pairs includePaths s, 1 ≤ r.1.length ∧ r.1.length ≤ 128) ↔
      ∀ e ∈ pairTable pairs, 1 ≤ e.1.length ∧ e.1.length ≤ 128 := by
    unfold exportedPaths
    exact List.forall_mem_map
  have hvalid := fun v => validateInventory_ok env hget rfl
    (exportedInventory_paths pairs includePaths s) rfl (v := v)
  -- what each receipt needs of the accepted data paths
  have hpasses : ∀ known, validatePaths
      ((exportedPaths pairs includePaths s).map fun r => .dict r.2) [] = .ok known →
      ∀ item ∈ s.items, PassesAlone env (known.map RescuePath.identity) item := by
    intro known hknown item hitem
    rw [validatePaths_identities hrows hknown, List.map_nil, List.nil_append, hkeys]
    exact hs.passes item hitem
  constructor
  · rintro ⟨v, hv⟩
    obtain ⟨hfew, -, hpaths, hrecords⟩ := (hvalid v).mp hv
    refine ⟨hlength ▸ hfew, ?_, ?_⟩
    · exact hbounds.mp ((validatePaths_iff hrows [] List.nodup_nil).mp ⟨_, hpaths⟩).1
    · rw [hids]
      exact (validateRecords_iff (hpasses _ hpaths) [] List.nodup_nil).mp ⟨_, hrecords⟩
  · rintro ⟨hfew, hnamed, hdistinct⟩
    rw [hids] at hdistinct
    obtain ⟨known, hknown⟩ := (validatePaths_iff hrows [] List.nodup_nil).mpr
      ⟨hbounds.mpr hnamed, by
        rw [List.map_nil, List.nil_append, hkeys]
        exact nodup_pairTable pairs⟩
    obtain ⟨clean, hclean⟩ := (validateRecords_iff (hpasses _ hknown) []
      List.nodup_nil).mpr hdistinct
    refine ⟨⟨known, clean⟩, (hvalid _).mpr ⟨hlength ▸ hfew, ?_, hknown, hclean⟩⟩
    rw [List.length_map]
    exact hs.few

theorem wellFormed_exportedInventory (includePaths : Bool) {s : ExportState}
    (hs : ExportOk env pairs s) :
    (Value.dict (exportedInventory pairs includePaths s)).wellFormed = true := by
  have hitems : (Value.list (s.items.map .dict)).wellFormed = true := by
    show wellFormedItems _ = true
    rw [wellFormedItems_iff]
    exact List.forall_mem_map.mpr hs.readable
  have hhint : ∀ identity, (targetHint includePaths s.hints identity).wellFormed = true := by
    intro identity
    unfold targetHint
    split
    · split_ifs <;> rfl
    · rfl
  have hpaths : (Value.list ((exportedPaths pairs includePaths s).map fun r =>
      .dict r.2)).wellFormed = true := by
    show wellFormedItems _ = true
    rw [wellFormedItems_iff]
    refine List.forall_mem_map.mpr fun r hr => ?_
    obtain ⟨e, -, rfl⟩ := List.mem_map.mp hr
    have hkeys : ["identity", "name", "target_hint"].Nodup := by decide
    rw [wellFormed_dict_iff]
    refine ⟨?_, hkeys⟩
    intro entry hentry
    simp only [List.mem_cons, List.not_mem_nil, or_false] at hentry
    rcases hentry with rfl | rfl | rfl
    · rfl
    · rfl
    · exact hhint e.1
  have hkeys : ["schema", "records", "skipped_invalid", "data_paths", "credentials_included",
      "files_included"].Nodup := by decide
  rw [wellFormed_dict_iff]
  refine ⟨?_, hkeys⟩
  intro entry hentry
  unfold exportedInventory at hentry
  simp only [List.mem_cons, List.not_mem_nil, or_false] at hentry
  rcases hentry with rfl | rfl | rfl | rfl | rfl | rfl
  · rfl
  · exact hitems
  · rfl
  · unfold exportedPaths at hpaths
    rw [List.map_map] at hpaths
    exact hpaths
  · rfl
  · rfl

theorem wellFormed_handoverPayload {createdAt recoveryPass : Value} {inventory : Dict}
    (hcreated : createdAt.wellFormed = true) (hpass : recoveryPass.wellFormed = true)
    (hinventory : (Value.dict inventory).wellFormed = true) :
    (Value.dict (handoverPayload createdAt recoveryPass inventory)).wellFormed = true := by
  have hkeys : ["created_at", "recovery_pass", "rescue_inventory", "instructions"].Nodup := by
    decide
  rw [wellFormed_dict_iff]
  refine ⟨?_, hkeys⟩
  intro entry hentry
  unfold handoverPayload at hentry
  simp only [List.mem_cons, List.not_mem_nil, or_false] at hentry
  rcases hentry with rfl | rfl | rfl | rfl
  · exact hcreated
  · exact hpass
  · exact hinventory
  · rfl

end Export

/-! ### Main result -/

/-- **The round trip of a handover package.**  A package that is made of an exported inventory
opens to its payload, byte by byte, and the inventory in it is valid where it is in order as a
whole.  Of all envelopes those open that have the values of a package which was made with the
passphrase; every other one is refused with a handover error. -/
theorem handover_round_trip (c : HandoverCrypto) (made : List MadePackage)
    (hideal : IdealCrypto c made) (env : RescueEnv) :
    (∀ (pairs : List Value) (files : List (Option Value)) (includePaths : Bool)
      (createdAt recoveryPass : Value) (inventory : Dict) (salt nonce : Bytes)
      (passphrase : String) (envelope : Dict),
      (∀ v, some v ∈ files → v.wellFormed = true) → createdAt.wellFormed = true →
      recoveryPass.wellFormed = true →
      portableInventory env pairs files includePaths = .ok inventory →
      salt.length = 16 → nonce.length = 12 →
      encryptedHandover c salt nonce (handoverPayload createdAt recoveryPass inventory) passphrase
        = .ok envelope →
      (∃ p : MadePackage, p.payload = handoverPayload createdAt recoveryPass inventory ∧
        p.passphrase = passphrase ∧ p.salt = salt ∧ p.nonce = nonce ∧ p.envelope c = envelope ∧
        (p ∈ made → decryptHandover c envelope passphrase = .ok p.payload ∧
          c.decrypt (p.key c) p.nonce (p.ciphertext c) handoverContext
            = some (handoverPlaintext p.payload))) ∧
      ((∃ v, validateInventory env (handoverPayload createdAt recoveryPass inventory) = .ok v) ↔
        Portable pairs inventory)) ∧
    ∀ (envelope : Dict) (passphrase : String),
      (∃ message, decryptHandover c envelope passphrase = .error (.handover message)) ∨
      ∃ p ∈ made, p.passphrase = passphrase ∧ Respells c p envelope ∧
        decryptHandover c envelope passphrase = .ok p.payload := by
  constructor
  · intro pairs files includePaths createdAt recoveryPass inventory salt nonce passphrase envelope
      hfiles hcreated hpass hexported hsalt hnonce hencrypted
    refine ⟨?_, portable_valid_iff hfiles hexported rfl⟩
    obtain ⟨s, hs, rfl⟩ := portableInventory_ok hfiles hexported
    have hreadable := wellFormed_handoverPayload hcreated hpass
      (wellFormed_exportedInventory includePaths hs)
    obtain ⟨p, hpayload, rfl, rfl, rfl, rfl⟩ :=
      (encryptedHandover_iff c hsalt hnonce hreadable envelope).mp hencrypted
    refine ⟨p, hpayload, rfl, rfl, rfl, rfl, fun hmade => ⟨?_, ?_⟩⟩
    · exact (decryptHandover_iff hideal).mpr ⟨p, hmade, rfl, respells_envelope hideal p, rfl⟩
    · exact (hideal.sealed _ _ _ _).mpr ⟨p, hmade, rfl, rfl, rfl, rfl⟩
  · intro envelope passphrase
    cases hopened : decryptHandover c envelope passphrase with
    | error e =>
      obtain ⟨message, rfl⟩ := decryptHandover_error hopened
      exact Or.inl ⟨message, rfl⟩
    | ok package =>
      obtain ⟨p, hp, hphrase, hspelled, rfl⟩ := (decryptHandover_iff hideal).mp hopened
      exact Or.inr ⟨p, hp, hphrase, hspelled, rfl⟩

/-! ### One receipt -/

/-- The digest of one byte. -/
def sampleDigest : String := "ca978112ca1bbdcafac231b39a23dc4da786eff8147c4e72b9807785afee48bb"

def sampleRescue : RescueEnv where
  sha256hex _ := sampleDigest
  isAlnum c := c.isAlphanum

def sampleReceipt : Value := .dict
  [("id", .str "doc-1"), ("identity", .str "p1"), ("filename", .str "IMG.jpg"), ("size", .int 1),
   ("sha256", .str sampleDigest), ("source_type", .str "photo"), ("device_name", .str "iPhone"),
   ("target_root", .str "/mnt/nas/Fotos"), ("target_relative", .str "Sicherpfad/iPhone/doc-1.jpg"),
   ("created_at", .int 100), ("completed_at", .int 101), ("status", .str "ready"),
   ("verified", .bool true)]

def samplePairs : List Value :=
  [.dict [("id", .str "p1"), ("name", .str "Fotos"), ("remote", .str "/mnt/nas/Fotos")]]

def sampleInventory : Dict :=
  exportedInventory samplePairs false
    ⟨[exportItem ((asDict sampleReceipt).getD [])], [("p1", "/mnt/nas/Fotos")], 0⟩

theorem sampleInventory_exported :
    portableInventory sampleRescue samplePairs [some sampleReceipt] false = .ok sampleInventory := by
  decide +kernel

def samplePayload : Dict := handoverPayload (.int 200) .none sampleInventory

theorem handoverPlaintext_le (payload : Dict) :
    (handoverPlaintext payload).length ≤ sizeBound (.dict payload) := by
  have hbytes : (handoverPlaintext payload).length =
      utf8Length (jsonDumps (gapJson []) (.dict payload)) := rfl
  rw [hbytes]
  exact (utf8Length_tight_le _).trans (encodedSize_le_sizeBound _)

def samplePackage : MadePackage where
  payload := samplePayload
  passphrase := "eine lange Passphrase"
  salt := List.replicate 16 0
  nonce := List.replicate 12 0
  salt_length := List.length_replicate
  nonce_length := List.length_replicate
  accepted := by decide
  readable := by decide +kernel
  small := (handoverPlaintext_le samplePayload).trans (by decide +kernel)

def sampleKey : Bytes := List.replicate 16 0 ++ utf8Bytes "eine lange Passphrase"

/-- Functions under which one package was made. -/
def sampleCrypto : HandoverCrypto where
  derive salt _ passphrase := salt ++ passphrase
  encrypt _ _ data _ := data ++ List.replicate 16 0
  decrypt key nonce data _ :=
    if sampleKey = key ∧ List.replicate 12 0 = nonce ∧
        handoverPlaintext samplePayload ++ List.replicate 16 0 = data then
      some (handoverPlaintext samplePayload)
    else none
  sha256 _ := ""

theorem sampleCrypto_ideal : IdealCrypto sampleCrypto [samplePackage] where
  distinct salt salt' passphrase passphrase' hsalt hsalt' h :=
    List.append_inj h (hsalt.trans hsalt'.symm)
  tag key nonce data := by
    show (data ++ List.replicate 16 0).length = _
    rw [List.length_append, List.length_replicate]
  sealed key nonce data plaintext := by
    show (if _ then _ else _) = some plaintext ↔ _
    constructor
    · intro h
      split at h
      · rename_i hsame
        exact ⟨samplePackage, List.mem_singleton_self _, hsame.1, hsame.2.1, hsame.2.2,
          Option.some.inj h⟩
      · cases h
    · rintro ⟨p, hp, hkey, hnonce, hdata, hplain⟩
      obtain rfl := List.mem_singleton.mp hp
      rw [if_pos ⟨hkey, hnonce, hdata⟩]
      exact congrArg some hplain

theorem encryptedHandover_sample :
    encryptedHandover sampleCrypto (List.replicate 16 0) (List.replicate 12 0) samplePayload
      "eine lange Passphrase" = .ok (samplePackage.envelope sampleCrypto) := by
  obtain ⟨-, hmade⟩ := encryptedHandover_iff sampleCrypto List.length_replicate
    List.length_replicate samplePackage.readable (samplePackage.envelope sampleCrypto)
  exact hmade ⟨samplePackage, rfl, rfl, rfl, rfl, rfl⟩

/-- A package of one receipt opens to its payload, and the inventory in it is valid. -/
theorem handover_round_trip_sample :
    decryptHandover sampleCrypto (samplePackage.envelope sampleCrypto) "eine lange Passphrase"
        = .ok samplePayload ∧
      ∃ v, validateInventory sampleRescue samplePayload = .ok v := by
  have hreadable : ∀ v, some v ∈ [some sampleReceipt] → v.wellFormed = true := by
    intro v hv
    obtain rfl := Option.some.inj (List.mem_singleton.mp hv)
    decide +kernel
  obtain ⟨⟨p, hpayload, hpassphrase, hsalt, hnonce, -, hopens⟩, hvalid⟩ :=
    (handover_round_trip sampleCrypto [samplePackage] sampleCrypto_ideal sampleRescue).1
      samplePairs [some sampleReceipt] false (.int 200) .none sampleInventory
      (List.replicate 16 0) (List.replicate 12 0) "eine lange Passphrase"
      (samplePackage.envelope sampleCrypto) hreadable rfl rfl sampleInventory_exported
      List.length_replicate List.length_replicate encryptedHandover_sample
  obtain rfl : p = samplePackage := by
    cases p
    obtain rfl := hpayload
    obtain rfl := hpassphrase
    obtain rfl := hsalt
    obtain rfl := hnonce
    rfl
  refine ⟨(hopens (List.mem_singleton_self _)).1, hvalid.mpr ⟨?_, ?_, ?_⟩⟩
  · decide +kernel
  · decide +kernel
  · decide +kernel

/-- A package keeps its values where its salt is spelled another way. -/
theorem respells_salt {c : HandoverCrypto} {made : List MadePackage} (hideal : IdealCrypto c made)
    (p : MadePackage) {raw : String} (hshort : raw.length ≤ 32)
    (hraw : b64decode raw = some p.salt) :
    Respells c p (Dict.set (p.envelope c) "salt_b64" (.str raw)) :=
  have hown := respells_envelope hideal p
  { fields := rfl
    schema := rfl
    kdf := rfl
    cipher := rfl
    iterations := rfl
    salt := ⟨raw, rfl, hshort, hraw⟩
    nonce := hown.nonce
    ciphertext := hown.ciphertext
    digest := hown.digest }

/-- The package, with its salt spelled another way: bits that belong to no byte are set. -/
def respelledEnvelope : Dict :=
  Dict.set (samplePackage.envelope sampleCrypto) "salt_b64" (.str "AAAAAAAAAAAAAAAAAAAAAB==")

def unnamedPairs : List Value := [.dict [("remote", .str "/mnt/nas/Fotos")]]

/-- A package with another text in its salt opens, and the inventory of a configuration with a
data path that has neither identifier nor name is exported but not valid. -/
theorem respelled_package_opens :
    (¬ ∀ (c : HandoverCrypto) (made : List MadePackage), IdealCrypto c made →
      ∀ p ∈ made, ∀ envelope : Dict, envelope ≠ p.envelope c →
        ∃ message, decryptHandover c envelope p.passphrase = .error (.handover message)) ∧
    ¬ ∀ (env : RescueEnv) (pairs : List Value) (files : List (Option Value))
      (includePaths : Bool) (inventory : Dict),
      portableInventory env pairs files includePaths = .ok inventory →
      ∃ v, validateInventory env [("rescue_inventory", .dict inventory)] = .ok v := by
  constructor
  · intro hclaim
    obtain ⟨message, hrefused⟩ := hclaim sampleCrypto [samplePackage] sampleCrypto_ideal
      samplePackage (List.mem_singleton_self _) respelledEnvelope (by decide +kernel)
    have hopens : decryptHandover sampleCrypto respelledEnvelope samplePackage.passphrase
        = .ok samplePayload := by
      rw [decryptHandover_iff sampleCrypto_ideal]
      exact ⟨samplePackage, List.mem_singleton_self _, rfl,
        respells_salt sampleCrypto_ideal samplePackage (by decide) (by decide +kernel), rfl⟩
    rw [hopens] at hrefused
    cases hrefused
  · intro hclaim
    obtain ⟨v, hvalid⟩ := hclaim sampleRescue unnamedPairs [] false
      (exportedInventory unnamedPairs false ⟨[], [], 0⟩) rfl
    have hrefused : validateInventory sampleRescue
        [("rescue_inventory", .dict (exportedInventory unnamedPairs false ⟨[], [], 0⟩))]
          = .error (.handover "Ungültige Datenweg-ID in der Notfallakte") := by
      decide +kernel
    rw [hrefused] at hvalid
    cases hvalid

end RcloneSync
