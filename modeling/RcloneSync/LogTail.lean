/-
RcloneSync/LogTail.lean

The tail of a log file that is polled while a job runs (`jobs/log_tail.py`).

`read_tail` keeps the last bytes of a file and what `stat` said of it.  When nothing has changed
the bytes are given out again; when the file has grown, only what is new is read.  That the file
was only appended to is concluded from its device and inode, its size and the byte before the end
of what is known.  A log that is truncated in place and grows past its old size may have the same
byte there: it is the end of a line in both.

`tail_fresh`: in every history in which files that pass these checks were only appended to, each
text is that of the last bytes of the file as it is.
-/
import RcloneSync.Runs
import RcloneSync.Utf8
import Mathlib.Data.List.DropRight
import Mathlib.Data.List.Infix
import Mathlib.Logic.Function.Basic
import Mathlib.Algebra.Order.BigOperators.Group.List
import Mathlib.Algebra.Ring.Int.Defs
import Mathlib.Data.List.Nodup
import Mathlib.Tactic.SplitIfs

namespace Py

/-- A byte, with nothing in the place of what cannot be decoded. -/
def ignoreByte (u : Utf8State) (b : UInt8) : Utf8State × List Char :=
  match utf8Byte u b with
  | some r => r
  | none => if u.owed = 0 then (.start, []) else (utf8Byte .start b).getD (.start, [])

/-- `data.decode("utf-8", errors="ignore")`. -/
def decodeIgnore (u : Utf8State) : List UInt8 → List Char
  | [] => []
  | b :: bs => (ignoreByte u b).2 ++ decodeIgnore (ignoreByte u b).1 bs

/-! ### The end of a list -/

section Rtake

variable {α : Type*} {a b : List α} {n : Nat}

theorem length_rtake (n : Nat) (a : List α) : (a.rtake n).length = min n a.length := by
  rw [List.rtake, List.length_drop]
  omega

theorem rtake_suffix (n : Nat) (a : List α) : a.rtake n <:+ a := List.drop_suffix _ _

/-- The end of a list is the end of what it ends with, where that is long enough. -/
theorem rtake_eq_of_suffix (h : a <:+ b) (hn : min n b.length ≤ a.length) :
    a.rtake n = b.rtake n := by
  have hlen := h.length_le
  have hsame : (a.rtake n).length = (b.rtake n).length := by
    rw [length_rtake, length_rtake]
    omega
  exact (List.suffix_of_suffix_length_le ((rtake_suffix n a).trans h) (rtake_suffix n b)
    hsame.le).eq_of_length hsame

theorem rtake_rtake {m : Nat} (h : n ≤ m) (a : List α) : (a.rtake m).rtake n = a.rtake n := by
  refine rtake_eq_of_suffix (rtake_suffix m a) ?_
  rw [length_rtake]
  omega

/-- Reading from the place where the end begins. -/
theorem take_drop_rtake (n : Nat) (a : List α) : (a.drop (a.length - n)).take n = a.rtake n := by
  refine List.take_of_length_le ?_
  rw [List.length_drop]
  omega

end Rtake

end Py

namespace RcloneSync

open Py Runs

/-! ### The cache -/

/-- `os.stat_result`, as far as it is looked at. -/
structure FileStat where
  device : Nat
  inode : Nat
  size : Nat
  mtimeNs : Int
  ctimeNs : Int
  deriving DecidableEq

/-- `_CacheEntry`. -/
structure CacheEntry extends FileStat where
  data : List UInt8
  deriving DecidableEq

def cacheMaxBytes : Nat := 16 * 1024 * 1024

def cacheMaxEntries : Nat := 128

/-- `_CACHE`, oldest entry first, and `_CACHE_BYTES`. -/
structure TailCache where
  entries : List (String × CacheEntry)
  bytes : Int
  deriving DecidableEq

/-- `_clear_cache`. -/
def TailCache.empty : TailCache := ⟨[], 0⟩

def TailCache.get (c : TailCache) (key : String) : Option CacheEntry := c.entries.lookup key

def withoutKey (key : String) (entries : List (String × CacheEntry)) :
    List (String × CacheEntry) :=
  entries.filter fun e => e.1 ≠ key

/-- `_CACHE.move_to_end`. -/
def TailCache.moveToEnd (c : TailCache) (key : String) (cached : CacheEntry) : TailCache :=
  { c with entries := withoutKey key c.entries ++ [(key, cached)] }

/-- The bytes that are left when an entry is popped. -/
def TailCache.bytesWithout (c : TailCache) (key : String) : Int :=
  match c.get key with
  | some previous => c.bytes - previous.data.length
  | none => c.bytes

/-- The oldest entries go until there is room. -/
def evict (needed : Nat) : List (String × CacheEntry) → Int → TailCache
  | [], bytes => ⟨[], bytes⟩
  | e :: rest, bytes =>
    if bytes + needed > cacheMaxBytes ∨ rest.length + 1 ≥ cacheMaxEntries then
      evict needed rest (bytes - e.2.data.length)
    else ⟨e :: rest, bytes⟩

/-- `_cache_put`, with what is kept of the bytes. -/
def putCached (key : String) (stat : FileStat) (cachedData : List UInt8) (c : TailCache) :
    TailCache :=
  if cachedData = [] then ⟨withoutKey key c.entries, max 0 (c.bytesWithout key)⟩
  else
    let c := evict cachedData.length (withoutKey key c.entries) (c.bytesWithout key)
    if cachedData.length ≤ cacheMaxBytes then
      ⟨c.entries ++ [(key, ⟨stat, cachedData⟩)], c.bytes + cachedData.length⟩
    else c

/-- `_cache_put`. -/
def cachePut (key : String) (stat : FileStat) (data : List UInt8) (c : TailCache) : TailCache :=
  putCached key stat (data.rtake cacheMaxBytes) c

/-- `_cache_drop`. -/
def cacheDrop (key : String) (c : TailCache) : TailCache :=
  match c.get key with
  | some previous => ⟨withoutKey key c.entries, max 0 (c.bytes - previous.data.length)⟩
  | none => c

/-! ### `read_tail` -/

structure LogFile where
  device : Nat
  inode : Nat
  mtimeNs : Int
  ctimeNs : Int
  content : List UInt8

def LogFile.stat (f : LogFile) : FileStat :=
  ⟨f.device, f.inode, f.content.length, f.mtimeNs, f.ctimeNs⟩

/-- `_unchanged`. -/
def unchanged (cached : CacheEntry) (stat : FileStat) : Bool := cached.toFileStat = stat

/-- `_same_file`. -/
def sameFile (cached : CacheEntry) (stat : FileStat) : Bool :=
  cached.inode ≠ 0 ∧ stat.inode ≠ 0 ∧ cached.device = stat.device ∧ cached.inode = stat.inode

def tailLimit (maxBytes : Int) : Nat := max 1024 maxBytes.toNat

/-- There is enough in the cache for the limit, or all there was. -/
def CacheEntry.covers (cached : CacheEntry) (limit : Nat) : Bool :=
  min limit cached.size ≤ cached.data.length

/-- The cached bytes can be given out as they are. -/
def isHit (limit : Nat) (cached : CacheEntry) (f : LogFile) : Bool :=
  unchanged cached f.stat && cached.covers limit

/-- `can_extend`.  An entry is never empty, so there is a byte before its end. -/
def canExtend (limit : Nat) (cached : CacheEntry) (f : LogFile) : Bool :=
  sameFile cached f.stat && decide (f.stat.size > cached.size) && cached.covers limit &&
    decide (f.stat.size - cached.size ≤ max limit cached.data.length) &&
    decide ((f.content.drop (cached.size - 1)).take 1 = cached.data.rtake 1)

/-- What is read of the open file: the bytes for the text, those for the cache, and where the
reading has stopped. -/
structure TailRead where
  raw : List UInt8
  cacheData : List UInt8
  position : Nat

def readExtended (limit : Nat) (cached : CacheEntry) (f : LogFile) : TailRead :=
  let capacity := max limit cached.data.length
  let added := (f.content.drop cached.size).take capacity
  let cacheData := (cached.data ++ added).rtake capacity
  ⟨cacheData.rtake limit, cacheData, cached.size + added.length⟩

def readAfresh (limit : Nat) (f : LogFile) : TailRead :=
  let raw := (f.content.drop (f.stat.size - limit)).take limit
  ⟨raw, raw, f.stat.size - limit + raw.length⟩

def readOpened (limit : Nat) (cached : Option CacheEntry) (f : LogFile) : TailRead :=
  match cached with
  | some cached => if canExtend limit cached f then readExtended limit cached f
    else readAfresh limit f
  | none => readAfresh limit f

/-- The end of `read_tail`: the cache keeps what was read to the end of the file. -/
def TailRead.result (r : TailRead) (path : String) (f : LogFile) (c : TailCache) :
    List Char × TailCache :=
  (decodeIgnore .start r.raw,
    if r.position = f.stat.size then cachePut path f.stat r.cacheData c else cacheDrop path c)

/-- `read_tail`; a file that is not there is an empty text. -/
def readTail (path : String) (maxBytes : Int) (file : Option LogFile) (c : TailCache) :
    List Char × TailCache :=
  match file with
  | none => ([], c)
  | some f =>
    let limit := tailLimit maxBytes
    match c.get path with
    | some cached =>
      if isHit limit cached f then
        (decodeIgnore .start (cached.data.rtake limit), c.moveToEnd path cached)
      else (readOpened limit (some cached) f).result path f c
    | none => (readOpened limit none f).result path f c

/-- The text of the last bytes of the file, read directly. -/
def directTail (maxBytes : Int) : Option LogFile → List Char
  | none => []
  | some f => decodeIgnore .start (f.content.rtake (tailLimit maxBytes))

/-! ### Histories -/

/-- The files, the cache, and what each file held when it was last read. -/
structure TailSystem where
  files : String → Option LogFile
  cache : TailCache
  seen : String → List UInt8

def TailSystem.init : TailSystem := ⟨fun _ => none, .empty, fun _ => []⟩

/-- A file is written, truncated, replaced or removed; it is read; the cache is cleared. -/
inductive TailAction
  | change (path : String) (file : Option LogFile)
  | read (path : String) (maxBytes : Int)
  | clear

def TailSystem.readTail (s : TailSystem) (path : String) (maxBytes : Int) : List Char × TailCache :=
  RcloneSync.readTail path maxBytes (s.files path) s.cache

def TailSystem.step (s : TailSystem) : TailAction → TailSystem
  | .change path file => { s with files := Function.update s.files path file }
  | .read path maxBytes =>
    { s with
      cache := (s.readTail path maxBytes).2
      seen := match s.files path with
        | some f => Function.update s.seen path f.content
        | none => s.seen }
  | .clear => { s with cache := .empty }

def tailStep : TailSystem → TailAction → TailSystem → Prop := fun s a t => t = s.step a

/-- A file that passes the checks of a read was only appended to since the last read. -/
def AppendedTo (s : TailSystem) : TailAction → Prop
  | .read path maxBytes => ∀ cached f, s.cache.get path = some cached → s.files path = some f →
      isHit (tailLimit maxBytes) cached f ∨ canExtend (tailLimit maxBytes) cached f →
      s.seen path <+: f.content
  | _ => True

/-! ### What a read returns -/

/-- An entry holds the end of what its file held when it was last read. -/
structure EntryFits (seen : List UInt8) (e : CacheEntry) : Prop where
  size : e.size = seen.length
  tail : e.data <:+ seen
  nonempty : e.data ≠ []

section Read

variable {seen : List UInt8} {e : CacheEntry} {f : LogFile} {limit : Nat}

theorem covers_iff : e.covers limit = true ↔ min limit e.size ≤ e.data.length := decide_eq_true_iff

/-- A file that was only appended to and has its old size is what it was. -/
theorem content_of_hit (h : EntryFits seen e) (happended : seen <+: f.content)
    (hhit : isHit limit e f = true) : f.content = seen := by
  obtain ⟨hstat, -⟩ := Bool.and_eq_true_iff.mp hhit
  have hsize : e.size = f.content.length := congrArg FileStat.size (of_decide_eq_true hstat)
  exact (happended.eq_of_length (h.size.symm.trans hsize)).symm

theorem rtake_of_hit (h : EntryFits seen e) (happended : seen <+: f.content)
    (hhit : isHit limit e f = true) : e.data.rtake limit = f.content.rtake limit := by
  rw [content_of_hit h happended hhit]
  obtain ⟨-, hcovers⟩ := Bool.and_eq_true_iff.mp hhit
  refine rtake_eq_of_suffix h.tail ?_
  rw [← h.size]
  exact covers_iff.mp hcovers

/-- What an extension reads, and what it relies on. -/
theorem canExtend_iff : canExtend limit e f = true ↔ sameFile e f.stat = true ∧
    e.size < f.content.length ∧ min limit e.size ≤ e.data.length ∧
    f.content.length - e.size ≤ max limit e.data.length ∧
    (f.content.drop (e.size - 1)).take 1 = e.data.rtake 1 := by
  simp only [canExtend, Bool.and_eq_true, covers_iff, and_assoc]
  simp only [decide_eq_true_iff, gt_iff_lt]
  rfl

/-- An extension of a file that was only appended to reads all that is new. -/
theorem readExtended_spec (h : EntryFits seen e) (happended : seen <+: f.content)
    (hext : canExtend limit e f = true) :
    (readExtended limit e f).raw = f.content.rtake limit ∧
      (readExtended limit e f).cacheData <:+ f.content ∧
      (readExtended limit e f).position = f.content.length := by
  obtain ⟨-, hgrown, hcovers, hroom, -⟩ := canExtend_iff.mp hext
  obtain ⟨added, hcontent⟩ := happended
  have hdrop : f.content.drop e.size = added := by
    rw [h.size, ← hcontent, List.drop_left]
  have hadded : added.length = f.content.length - e.size := by
    rw [← hdrop, List.length_drop]
  have htake : (f.content.drop e.size).take (max limit e.data.length) = added := by
    rw [hdrop, List.take_of_length_le (hadded.trans_le hroom)]
  have hsuffix : e.data ++ added <:+ f.content := by
    obtain ⟨before, hbefore⟩ := h.tail
    exact ⟨before, by rw [← List.append_assoc, hbefore, hcontent]⟩
  have hend : (e.data ++ added).rtake limit = f.content.rtake limit := by
    refine rtake_eq_of_suffix hsuffix ?_
    rw [List.length_append, hadded]
    omega
  refine ⟨?_, ?_, ?_⟩
  · show (List.rtake (e.data ++ _) _).rtake limit = _
    rw [htake, rtake_rtake (Nat.le_max_left _ _), hend]
  · show List.rtake (e.data ++ _) _ <:+ _
    rw [htake]
    exact (rtake_suffix _ _).trans hsuffix
  · show e.size + List.length (List.take _ _) = _
    rw [htake, hadded]
    omega

theorem readAfresh_spec (limit : Nat) (f : LogFile) :
    (readAfresh limit f).raw = f.content.rtake limit ∧
      (readAfresh limit f).cacheData <:+ f.content ∧
      (readAfresh limit f).position = f.content.length := by
  have hraw : (readAfresh limit f).raw = f.content.rtake limit := take_drop_rtake limit f.content
  have hdata : (readAfresh limit f).cacheData = f.content.rtake limit := hraw
  refine ⟨hraw, by rw [hdata]; exact rtake_suffix limit f.content, ?_⟩
  show f.content.length - limit + (readAfresh limit f).raw.length = _
  rw [hraw, length_rtake]
  omega

/-- **One read of the open file.** -/
theorem readOpened_spec (seen : List UInt8) (limit : Nat) (f : LogFile)
    {cached : Option CacheEntry}
    (h : ∀ e, cached = some e → canExtend limit e f = true →
      EntryFits seen e ∧ seen <+: f.content) :
    (readOpened limit cached f).raw = f.content.rtake limit ∧
      (readOpened limit cached f).cacheData <:+ f.content ∧
      (readOpened limit cached f).position = f.content.length := by
  cases cached with
  | none => exact readAfresh_spec limit f
  | some e =>
    show (if canExtend limit e f then readExtended limit e f else readAfresh limit f).raw = _ ∧ _
    unfold readOpened
    dsimp only
    split_ifs with hext
    · obtain ⟨hfits, happended⟩ := h e rfl hext
      exact readExtended_spec hfits happended hext
    · exact readAfresh_spec limit f

end Read

/-! ### What the cache holds -/

/-- Every entry fits what its file held. -/
def HoldsSeen (seen : String → List UInt8) (entries : List (String × CacheEntry)) : Prop :=
  ∀ k e, (k, e) ∈ entries → EntryFits (seen k) e

section Cache

variable {seen : String → List UInt8} {entries : List (String × CacheEntry)} {c : TailCache}
  {key : String}

theorem evict_suffix (needed : Nat) (entries : List (String × CacheEntry)) (bytes : Int) :
    (evict needed entries bytes).entries <:+ entries := by
  induction entries generalizing bytes with
  | nil => exact List.suffix_rfl
  | cons e rest ih =>
    rw [evict]
    split_ifs
    · exact (ih _).trans (List.suffix_cons _ _)
    · exact List.suffix_rfl

theorem mem_of_get {e : CacheEntry} (h : c.get key = some e) : (key, e) ∈ c.entries := by
  obtain ⟨before, after, hsplit, -⟩ := List.lookup_eq_some_iff.mp h
  rw [hsplit]
  exact List.mem_append_right _ List.mem_cons_self

/-- Entries of other files are not touched by what becomes of one file. -/
theorem HoldsSeen.update (h : HoldsSeen seen entries) (key : String) (content : List UInt8) :
    HoldsSeen (Function.update seen key content) (withoutKey key entries) := by
  intro k e hmem
  obtain ⟨hmem, hne⟩ := List.mem_filter.mp hmem
  rw [Function.update_of_ne (of_decide_eq_true hne)]
  exact h k e hmem

theorem HoldsSeen.sublist (h : HoldsSeen seen entries) {rest : List (String × CacheEntry)}
    (hrest : rest ⊆ entries) : HoldsSeen seen rest := fun k e hmem => h k e (hrest hmem)

theorem HoldsSeen.snoc (h : HoldsSeen seen entries) {e : CacheEntry} (he : EntryFits (seen key) e) :
    HoldsSeen seen (entries ++ [(key, e)]) := by
  intro k e' hmem
  rcases List.mem_append.mp hmem with hmem | hmem
  · exact h k e' hmem
  · obtain ⟨rfl, rfl⟩ := Prod.mk.inj (List.mem_singleton.mp hmem)
    exact he

theorem holdsSeen_putCached (key : String) (h : HoldsSeen seen c.entries) {f : LogFile}
    {data : List UInt8} (hdata : data <:+ f.content) :
    HoldsSeen (Function.update seen key f.content) (putCached key f.stat data c).entries := by
  have hothers := h.update key f.content
  unfold putCached
  dsimp only
  split_ifs with hempty
  · exact hothers
  · refine HoldsSeen.snoc (hothers.sublist (evict_suffix _ _ _).subset) ?_
    rw [Function.update_self]
    exact ⟨rfl, hdata, hempty⟩
  · exact hothers.sublist (evict_suffix _ _ _).subset

/-- A read to the end of the file leaves what the file holds. -/
theorem holdsSeen_result (h : HoldsSeen seen c.entries) {f : LogFile} {r : TailRead}
    (hdata : r.cacheData <:+ f.content) (hend : r.position = f.content.length) :
    HoldsSeen (Function.update seen key f.content) (r.result key f c).2.entries := by
  have hstat : r.position = f.stat.size := hend
  have hput := holdsSeen_putCached key h
    ((rtake_suffix cacheMaxBytes r.cacheData).trans hdata)
  unfold TailRead.result cachePut
  rw [if_pos hstat]
  exact hput

end Cache

/-! ### The bounds of the cache -/

/-- The bytes of the entries. -/
def dataBytes (entries : List (String × CacheEntry)) : Int :=
  (entries.map fun e => (e.2.data.length : Int)).sum

/-- The cache has one entry for a file, has counted its bytes, and is within its bounds. -/
structure TailCache.Bounded (c : TailCache) : Prop where
  nodup : (c.entries.map Prod.fst).Nodup
  counted : c.bytes = dataBytes c.entries
  room : c.bytes ≤ cacheMaxBytes
  count : c.entries.length ≤ cacheMaxEntries

section Bounds

variable {entries : List (String × CacheEntry)} {c : TailCache} {key : String}

theorem dataBytes_cons (e : String × CacheEntry) (entries : List (String × CacheEntry)) :
    dataBytes (e :: entries) = e.2.data.length + dataBytes entries := rfl

theorem dataBytes_snoc (entries : List (String × CacheEntry)) (e : String × CacheEntry) :
    dataBytes (entries ++ [e]) = dataBytes entries + e.2.data.length := by
  simp [dataBytes]

theorem dataBytes_nonneg (entries : List (String × CacheEntry)) : 0 ≤ dataBytes entries :=
  List.sum_nonneg fun n hn => by
    obtain ⟨e, -, rfl⟩ := List.mem_map.mp hn
    exact Int.natCast_nonneg _

theorem nodup_withoutKey (key : String) (h : (entries.map Prod.fst).Nodup) :
    ((withoutKey key entries).map Prod.fst).Nodup :=
  h.sublist (List.filter_sublist.map _)

theorem nodup_snoc (h : (entries.map Prod.fst).Nodup) (hkey : ∀ e ∈ entries, e.1 ≠ key)
    (e : CacheEntry) : ((entries ++ [(key, e)]).map Prod.fst).Nodup := by
  rw [List.map_append, List.nodup_append]
  refine ⟨h, List.nodup_singleton _, fun a ha b hb hab => ?_⟩
  obtain ⟨x, hx, rfl⟩ := List.mem_map.mp ha
  obtain rfl := List.mem_singleton.mp hb
  exact hkey x hx hab

theorem not_mem_withoutKey (key : String) (entries : List (String × CacheEntry)) :
    ∀ e ∈ withoutKey key entries, e.1 ≠ key :=
  fun _ he => of_decide_eq_true (List.mem_filter.mp he).2

/-- The bytes of the entries but one. -/
theorem dataBytes_withoutKey (h : (entries.map Prod.fst).Nodup) :
    dataBytes (withoutKey key entries) =
      dataBytes entries - ((entries.lookup key).map fun e => (e.data.length : Int)).getD 0 := by
  induction entries with
  | nil => rfl
  | cons e rest ih =>
    obtain ⟨k, e⟩ := e
    obtain ⟨hnot, hrest⟩ := List.nodup_cons.mp h
    by_cases hk : k = key
    · subst hk
      have hsame : withoutKey k rest = rest := List.filter_eq_self.mpr fun x hx => decide_eq_true
        fun hxk => hnot (List.mem_map.mpr ⟨x, hx, hxk⟩)
      have hcons : withoutKey k ((k, e) :: rest) = withoutKey k rest :=
        List.filter_cons_of_neg (by simp)
      rw [hcons, hsame, List.lookup_cons_self, dataBytes_cons]
      simp
    · have hcons : withoutKey key ((k, e) :: rest) = (k, e) :: withoutKey key rest :=
        List.filter_cons_of_pos (decide_eq_true hk)
      have hlookup : List.lookup key ((k, e) :: rest) = List.lookup key rest := by
        rw [List.lookup_cons, beq_false_of_ne fun h => hk h.symm]
      rw [hcons, hlookup, dataBytes_cons, dataBytes_cons, ih hrest]
      omega

theorem TailCache.Bounded.bytesWithout (h : c.Bounded) (key : String) :
    c.bytesWithout key = dataBytes (withoutKey key c.entries) := by
  rw [dataBytes_withoutKey h.nodup, ← h.counted]
  unfold TailCache.bytesWithout TailCache.get
  cases c.entries.lookup key with
  | none => simp
  | some e => rfl

theorem dataBytes_withoutKey_le (key : String) (entries : List (String × CacheEntry)) :
    dataBytes (withoutKey key entries) ≤ dataBytes entries := by
  induction entries with
  | nil => exact Int.le_refl _
  | cons e rest ih =>
    rw [dataBytes_cons]
    by_cases hk : e.1 = key
    · have hcons : withoutKey key (e :: rest) = withoutKey key rest :=
        List.filter_cons_of_neg (by simp [hk])
      rw [hcons]
      omega
    · have hcons : withoutKey key (e :: rest) = e :: withoutKey key rest :=
        List.filter_cons_of_pos (decide_eq_true hk)
      rw [hcons, dataBytes_cons]
      omega

/-- Without an entry the cache is still within its bounds. -/
theorem TailCache.Bounded.without (h : c.Bounded) (key : String) :
    TailCache.Bounded ⟨withoutKey key c.entries, max 0 (c.bytesWithout key)⟩ := by
  have hbytes := h.bytesWithout key
  have hle := dataBytes_withoutKey_le key c.entries
  have hnonneg := dataBytes_nonneg (withoutKey key c.entries)
  have hcounted := h.counted
  have hroom := h.room
  refine ⟨nodup_withoutKey key h.nodup, ?_, ?_, (List.length_filter_le _ _).trans h.count⟩
  · show max 0 (c.bytesWithout key) = dataBytes (withoutKey key c.entries)
    omega
  · show max 0 (c.bytesWithout key) ≤ _
    omega

/-- What is left after the eviction is counted, and there is room. -/
theorem evict_spec (needed : Nat) (entries : List (String × CacheEntry)) :
    (evict needed entries (dataBytes entries)).bytes =
        dataBytes (evict needed entries (dataBytes entries)).entries ∧
      ((evict needed entries (dataBytes entries)).entries = [] ∨
        (evict needed entries (dataBytes entries)).bytes + needed ≤ cacheMaxBytes ∧
          (evict needed entries (dataBytes entries)).entries.length < cacheMaxEntries) := by
  induction entries with
  | nil => exact ⟨rfl, .inl rfl⟩
  | cons e rest ih =>
    rw [evict]
    split_ifs with hfull
    · rw [dataBytes_cons, add_sub_cancel_left]
      exact ih
    · obtain ⟨hroom, hcount⟩ := not_or.mp hfull
      exact ⟨rfl, .inr ⟨Int.not_lt.mp hroom, Nat.not_le.mp hcount⟩⟩

theorem TailCache.Bounded.putCached (h : c.Bounded) (key : String) (stat : FileStat)
    (data : List UInt8) : (RcloneSync.putCached key stat data c).Bounded := by
  unfold RcloneSync.putCached
  dsimp only
  rw [h.bytesWithout]
  have hsuffix := evict_suffix data.length (withoutKey key c.entries)
    (dataBytes (withoutKey key c.entries))
  obtain ⟨hcounted, hroom⟩ := evict_spec data.length (withoutKey key c.entries)
  generalize evict data.length (withoutKey key c.entries)
    (dataBytes (withoutKey key c.entries)) = left at hsuffix hcounted hroom ⊢
  have hnodup : (left.entries.map Prod.fst).Nodup :=
    (nodup_withoutKey key h.nodup).sublist (hsuffix.sublist.map _)
  have hkey : ∀ e ∈ left.entries, e.1 ≠ key := fun e he =>
    not_mem_withoutKey key c.entries e (hsuffix.subset he)
  split_ifs with hempty hfits
  · rw [← h.bytesWithout]
    exact h.without key
  · refine ⟨nodup_snoc hnodup hkey _, ?_, ?_, ?_⟩
    · rw [dataBytes_snoc, hcounted]
    · rcases hroom with hnone | ⟨hroom, -⟩
      · show left.bytes + (data.length : Int) ≤ _
        rw [hcounted, hnone]
        simpa [dataBytes] using hfits
      · exact hroom
    · show (left.entries ++ [_]).length ≤ _
      rw [List.length_append, List.length_singleton]
      rcases hroom with hnone | ⟨-, hcount⟩
      · rw [hnone]
        decide
      · exact hcount
  · refine ⟨hnodup, hcounted, ?_, ?_⟩
    · rcases hroom with hnone | ⟨hroom, -⟩
      · rw [hcounted, hnone]
        exact Int.natCast_nonneg _
      · omega
    · exact hsuffix.length_le.trans ((List.length_filter_le _ _).trans h.count)

theorem TailCache.Bounded.cacheDrop (h : c.Bounded) (key : String) :
    (RcloneSync.cacheDrop key c).Bounded := by
  have hwithout := h.without key
  unfold TailCache.bytesWithout at hwithout
  unfold RcloneSync.cacheDrop
  cases hget : c.get key with
  | none => exact h
  | some previous =>
    rw [hget] at hwithout
    exact hwithout

theorem TailCache.Bounded.moveToEnd (h : c.Bounded) {e : CacheEntry} (he : c.get key = some e) :
    (c.moveToEnd key e).Bounded := by
  have hbytes : dataBytes (withoutKey key c.entries) = dataBytes c.entries - e.data.length := by
    rw [dataBytes_withoutKey h.nodup, show c.entries.lookup key = some e from he]
    rfl
  have hshorter : (withoutKey key c.entries).length < c.entries.length :=
    List.length_filter_lt_length_iff_exists.mpr ⟨_, mem_of_get he, by simp⟩
  have hcount := h.count
  refine ⟨nodup_snoc (nodup_withoutKey key h.nodup) (not_mem_withoutKey key c.entries) _, ?_,
    h.room, ?_⟩
  · show c.bytes = dataBytes (withoutKey key c.entries ++ _)
    rw [dataBytes_snoc, hbytes, h.counted, sub_add_cancel]
  · show (withoutKey key c.entries ++ [_]).length ≤ _
    rw [List.length_append, List.length_singleton]
    exact hshorter.trans_le hcount

theorem TailCache.Bounded.readTail (h : c.Bounded) (path : String) (maxBytes : Int)
    (file : Option LogFile) : (RcloneSync.readTail path maxBytes file c).2.Bounded := by
  have hresult : ∀ (r : TailRead) (f : LogFile), (r.result path f c).2.Bounded := by
    intro r f
    unfold TailRead.result
    dsimp only
    split_ifs
    · exact h.putCached path f.stat (r.cacheData.rtake cacheMaxBytes)
    · exact h.cacheDrop path
  unfold RcloneSync.readTail
  cases file with
  | none => exact h
  | some f =>
    dsimp only
    cases hget : c.get path with
    | none => exact hresult _ f
    | some e =>
      dsimp only
      split_ifs
      · exact h.moveToEnd hget
      · exact hresult _ f

end Bounds

/-- **The cache stays within its bounds**, in every history. -/
theorem tail_cache_bounded {as : List TailAction} {s : TailSystem}
    (hrun : Run tailStep .init as s) : s.cache.Bounded := by
  have hempty : TailCache.empty.Bounded := ⟨List.nodup_nil, rfl, by decide, by decide⟩
  refine hrun.preserves (fun s => s.cache.Bounded) (fun s a t h hstep => ?_) hempty
  obtain rfl := hstep
  cases a with
  | change path file => exact h
  | read path maxBytes => exact h.readTail path maxBytes (s.files path)
  | clear => exact hempty

/-! ### Every history -/

section Histories

variable {s t : TailSystem} {path : String} {maxBytes : Int}

/-- What a cached entry says of a file that passes the checks. -/
theorem entryFits_of_appended (h : HoldsSeen s.seen s.cache.entries)
    (happ : AppendedTo s (.read path maxBytes)) {f : LogFile} (hf : s.files path = some f)
    {e : CacheEntry} (he : s.cache.get path = some e)
    (hchecks : isHit (tailLimit maxBytes) e f ∨ canExtend (tailLimit maxBytes) e f) :
    EntryFits (s.seen path) e ∧ s.seen path <+: f.content :=
  ⟨h path e (mem_of_get he), happ e f he hf hchecks⟩

/-- **One read**: its text is that of the file, and the cache holds what the file holds. -/
theorem readTail_spec (h : HoldsSeen s.seen s.cache.entries)
    (happ : AppendedTo s (.read path maxBytes)) :
    (s.readTail path maxBytes).1 = directTail maxBytes (s.files path) ∧
      HoldsSeen (s.step (.read path maxBytes)).seen
        (s.step (.read path maxBytes)).cache.entries := by
  unfold TailSystem.step
  dsimp only
  unfold TailSystem.readTail
  cases hf : s.files path with
  | none => exact ⟨rfl, h⟩
  | some f =>
    unfold readTail directTail
    dsimp only
    cases he : s.cache.get path with
    | none =>
      obtain ⟨hraw, hdata, hend⟩ := @readOpened_spec [] (tailLimit maxBytes) f none
        fun e he => nomatch he
      exact ⟨congrArg _ hraw, holdsSeen_result h hdata hend⟩
    | some e =>
      dsimp only
      split_ifs with hhit
      · obtain ⟨hfits, happended⟩ := entryFits_of_appended h happ hf he (.inl hhit)
        refine ⟨congrArg _ (rtake_of_hit hfits happended hhit), ?_⟩
        refine HoldsSeen.snoc (h.update path f.content) ?_
        rw [Function.update_self, content_of_hit hfits happended hhit]
        exact hfits
      · obtain ⟨hraw, hdata, hend⟩ := @readOpened_spec (s.seen path) (tailLimit maxBytes) f (some e)
          fun e' he' hext => by
            obtain rfl := Option.some.inj he'
            exact entryFits_of_appended h happ hf he (.inr hext)
        exact ⟨congrArg _ hraw, holdsSeen_result h hdata hend⟩

theorem holdsSeen_step {a : TailAction} (h : HoldsSeen s.seen s.cache.entries)
    (hstep : Restrict tailStep AppendedTo s a t) : HoldsSeen t.seen t.cache.entries := by
  obtain ⟨rfl, happ⟩ := hstep
  cases a with
  | change path file => exact h
  | read path maxBytes => exact (readTail_spec h happ).2
  | clear => exact fun k e hmem => absurd hmem List.not_mem_nil

end Histories

/-- **The cached tail is the tail of the file**, after every history in which the files that pass
the checks of a read were only appended to. -/
theorem tail_fresh {as : List TailAction} {s : TailSystem}
    (hrun : Run (Restrict tailStep AppendedTo) .init as s) (path : String) (maxBytes : Int)
    (happ : AppendedTo s (.read path maxBytes)) :
    (s.readTail path maxBytes).1 = directTail maxBytes (s.files path) := by
  have hholds : HoldsSeen s.seen s.cache.entries :=
    hrun.preserves (fun s => HoldsSeen s.seen s.cache.entries) (fun _ _ _ h => holdsSeen_step h)
      (fun _ _ hmem => absurd hmem List.not_mem_nil)
  exact (readTail_spec hholds happ).1

/-- A log file with a time for both its times. -/
def logFile (inode : Nat) (time : Int) (lines : String) : LogFile :=
  ⟨1, inode, time, time, lines.toList.map fun c => c.toNat.toUInt8⟩

/-- A log that grows is read twice. -/
def grownLog : List TailAction :=
  [.change "a.log" (some (logFile 7 1 "old\n")), .read "a.log" 0,
    .change "a.log" (some (logFile 7 2 "old\nmore\n"))]

theorem tail_fresh_grown :
    ((grownLog.foldl TailSystem.step .init).readTail "a.log" 0).1 = "old\nmore\n".toList := by
  have hfirst : AppendedTo (TailSystem.init.step
      (.change "a.log" (some (logFile 7 1 "old\n")))) (.read "a.log" 0) := by
    intro e f he
    cases he
  have hsecond : AppendedTo (grownLog.foldl TailSystem.step .init) (.read "a.log" 0) := by
    intro e f _ hf _
    obtain rfl := Option.some.inj hf
    exact ⟨(logFile 7 2 "more\n").content, by decide⟩
  have hrun : Run (Restrict tailStep AppendedTo) .init grownLog
      (grownLog.foldl TailSystem.step .init) :=
    .cons ⟨rfl, trivial⟩ (.cons ⟨rfl, hfirst⟩ (.cons ⟨rfl, trivial⟩ (.nil _)))
  exact (tail_fresh hrun "a.log" 0 hsecond).trans (by decide)

/-- A log that is truncated in place and grows past its old size, with the end of a line in the
place of the old end. -/
def truncatedLog : List TailAction :=
  [.change "a.log" (some (logFile 7 1 "old\n")), .read "a.log" 0,
    .change "a.log" (some (logFile 7 2 "")), .change "a.log" (some (logFile 7 3 "new\nmore\n"))]

/-- The text begins with a line that is no longer in the file. -/
theorem not_tail_fresh : ¬ ∀ (as : List TailAction) (s : TailSystem), Run tailStep .init as s →
    ∀ path maxBytes, (s.readTail path maxBytes).1 = directTail maxBytes (s.files path) := by
  intro h
  have hrun : Run tailStep .init truncatedLog (truncatedLog.foldl TailSystem.step .init) :=
    run_of_foldl TailSystem.step .init truncatedLog
  have hcached : ((truncatedLog.foldl TailSystem.step .init).readTail "a.log" 0).1 =
      "old\nmore\n".toList := by decide
  have hdirect : directTail 0 ((truncatedLog.foldl TailSystem.step .init).files "a.log") =
      "new\nmore\n".toList := by decide
  have hsame := h _ _ hrun "a.log" 0
  rw [hcached, hdirect] at hsame
  exact absurd hsame (by decide)

end RcloneSync
