import Mathlib.Algebra.Order.Group.Int
import Mathlib.Algebra.Order.Monoid.Prod
import NewApi.Lib.Run
import NewApi.Lib.Sum

/-!
# Storage of request bodies

A request's body is read once and kept until the request ends, so that every attempt to relay it can read it again. A large
one is kept in a file, as long as the files of the cache are within their limit, all others in memory. Whichever it is, a
caller reads what the client has sent (`replayed`) and sees no difference (`answers_off`), and the counters count what is
kept (`usage_run`).
-/

namespace NewApi.BodyStorage

open Run

/-- `ErrStorageClosed`, `io.EOF`, a seek to before the start, a file that is too short, `ErrRequestBodyTooLarge`, and
what the body of the request or the disk fails with. -/
inductive StorageError
  | storageClosed | eof | negativePosition | unexpectedEOF | requestBodyTooLarge | readFailed | diskFailed
deriving DecidableEq

inductive Whence
  | start | current | fromEnd

/-- What an offset is counted from. -/
def Whence.base (position size : ℕ) : Whence → ℕ
  | .start => 0
  | .current => position
  | .fromEnd => size

/-! ## The two storages -/

/-- `memoryStorage` or `diskStorage`: its data or what its file holds, its size, and the position of its reader or its file. -/
structure Storage where
  isDisk : Bool
  data : List UInt8
  size : ℕ
  position : ℕ := 0
  closed : Bool := false

namespace Storage

/-- A read of a file has come to the end if it gives nothing for a buffer that is not empty, one of a `bytes.Reader`
wherever nothing is left. -/
def AtEnd (n : ℕ) (st : Storage) : Prop :=
  if st.isDisk then (st.data.drop st.position).take n = [] ∧ n ≠ 0 else st.data.length ≤ st.position

instance (n : ℕ) (st : Storage) : Decidable (st.AtEnd n) := by
  unfold AtEnd
  infer_instance

def read (n : ℕ) (st : Storage) : Except StorageError (List UInt8) × Storage :=
  if st.closed then (.error .storageClosed, st)
  else if st.AtEnd n then (.error .eof, st)
  else
    let p := (st.data.drop st.position).take n
    (.ok p, { st with position := st.position + p.length })

def seek (offset : Int) (whence : Whence) (st : Storage) : Except StorageError ℕ × Storage :=
  if st.closed then (.error .storageClosed, st)
  else
    let abs := whence.base st.position st.data.length + offset
    if abs < 0 then (.error .negativePosition, st) else (.ok abs.toNat, { st with position := abs.toNat })

/-- The position in a file is restored, but not after `ReadFull` has failed. -/
def bytes (st : Storage) : Except StorageError (List UInt8) × Storage :=
  if st.closed then (.error .storageClosed, st)
  else if ¬ st.isDisk then (.ok st.data, st)
  else if st.data.length < st.size then (.error .unexpectedEOF, { st with position := st.data.length })
  else (.ok (st.data.take st.size), st)

/-- What reads with buffers of these sizes give together, up to the first one that fails. -/
def reads : List ℕ → Storage → List UInt8
  | [], _ => []
  | n :: ns, st =>
    match st.read n with
    | (.ok p, st) => p ++ reads ns st
    | (.error _, _) => []

end Storage

/-! ## The cache -/

structure DiskCacheConfig where
  enabled : Bool := false
  thresholdMB : Int := 10
  maxSizeMB : Int := 1024

/-- `n << 20`. -/
def megabytes (n : Int) : Int := n * 2 ^ 20

structure DiskCacheStats where
  activeDiskFiles : Int := 0
  currentDiskUsageBytes : Int := 0
  activeMemoryBuffers : Int := 0
  currentMemoryUsageBytes : Int := 0
  diskCacheHits : ℕ := 0
  memoryCacheHits : ℕ := 0

namespace DiskCacheStats

def incrementDiskFiles (size : ℕ) (x : DiskCacheStats) : DiskCacheStats :=
  { x with activeDiskFiles := x.activeDiskFiles + 1, currentDiskUsageBytes := x.currentDiskUsageBytes + size }

def decrementDiskFiles (size : ℕ) (x : DiskCacheStats) : DiskCacheStats :=
  { x with
    activeDiskFiles := if x.activeDiskFiles - 1 < 0 then 0 else x.activeDiskFiles - 1
    currentDiskUsageBytes := if x.currentDiskUsageBytes - size < 0 then 0 else x.currentDiskUsageBytes - size }

def incrementMemoryBuffers (size : ℕ) (x : DiskCacheStats) : DiskCacheStats :=
  { x with activeMemoryBuffers := x.activeMemoryBuffers + 1, currentMemoryUsageBytes := x.currentMemoryUsageBytes + size }

def decrementMemoryBuffers (size : ℕ) (x : DiskCacheStats) : DiskCacheStats :=
  { x with activeMemoryBuffers := x.activeMemoryBuffers - 1, currentMemoryUsageBytes := x.currentMemoryUsageBytes - size }

def isDiskCacheAvailable (config : DiskCacheConfig) (requestSize : Int) (x : DiskCacheStats) : Bool :=
  config.enabled && decide (x.currentDiskUsageBytes + requestSize ≤ megabytes config.maxSizeMB)

def shouldUseDiskCache (config : DiskCacheConfig) (dataSize : Int) (x : DiskCacheStats) : Bool :=
  config.enabled && decide (megabytes config.thresholdMB ≤ dataSize) && x.isDiskCacheAvailable config dataSize

end DiskCacheStats

/-- A reader: what it gives, and whether it fails behind that. -/
structure Body where
  content : List UInt8
  fails : Bool := false

/-- `io.ReadAll` of an `io.LimitReader`. -/
def Body.readAll (limit : ℕ) (b : Body) : Except StorageError (List UInt8) :=
  if b.content.length < limit ∧ b.fails then .error .readFailed else .ok (b.content.take limit)

section
variable (config : DiskCacheConfig) (diskFails : Bool)

def newMemoryStorage (data : List UInt8) (x : DiskCacheStats) : Storage × DiskCacheStats :=
  ({ isDisk := false, data, size := data.length }, x.incrementMemoryBuffers data.length)

def newDiskStorage (data : List UInt8) (x : DiskCacheStats) : Storage × DiskCacheStats :=
  ({ isDisk := true, data, size := data.length }, x.incrementDiskFiles data.length)

def createBodyStorage (data : List UInt8) (x : DiskCacheStats) : Storage × DiskCacheStats :=
  if config.enabled ∧ megabytes config.thresholdMB ≤ data.length ∧ x.isDiskCacheAvailable config data.length then
    if diskFails then newMemoryStorage data x else newDiskStorage data x
  else newMemoryStorage data x

def newDiskStorageFromReader (reader : Body) (maxBytes : ℕ) (x : DiskCacheStats) :
    Except StorageError (Storage × DiskCacheStats) :=
  if diskFails then .error .diskFailed
  else
    match reader.readAll (maxBytes + 1) with
    | .error e => .error e
    | .ok data =>
      if maxBytes < data.length then .error .requestBodyTooLarge
      else .ok (newDiskStorage data x)

/-- A storage is counted as a hit of its kind. -/
def hit (r : Storage × DiskCacheStats) : Storage × DiskCacheStats :=
  (r.1, if r.1.isDisk then { r.2 with diskCacheHits := r.2.diskCacheHits + 1 }
    else { r.2 with memoryCacheHits := r.2.memoryCacheHits + 1 })

def createBodyStorageFromReader (reader : Body) (contentLength : Int) (maxBytes : ℕ) (x : DiskCacheStats) :
    Except StorageError (Storage × DiskCacheStats) :=
  if config.enabled ∧ 0 < contentLength ∧ megabytes config.thresholdMB ≤ contentLength ∧
      x.isDiskCacheAvailable config contentLength then
    (newDiskStorageFromReader diskFails reader maxBytes x).map hit
  else
    match reader.readAll (maxBytes + 1) with
    | .error e => .error e
    | .ok data =>
      if maxBytes < data.length then .error .requestBodyTooLarge
      else .ok (hit (createBodyStorage config diskFails data x))

end

/-! ## The requests -/

/-- `gin.Context`: what the client sends, and what is left to read of it once it was read and closed; what a middleware has
set in its place under `KeyRequestBody`; and the storage. -/
structure Context where
  id : ℕ
  contentLength : Int
  body : Body
  rest : Option Body := none
  requestBody : Option (List UInt8) := none
  storage : Option Storage := none

/-- What the body of a request is for its callers. -/
def Context.sent (c : Context) : List UInt8 := c.requestBody.getD c.body.content

/-- The caches of the bodies, and the sizes of the other files in the cache on the disk. -/
structure State where
  config : DiskCacheConfig
  stats : DiskCacheStats := {}
  contexts : Table Context.id := .empty
  files : List ℕ := []

/-- What a caller is told. -/
inductive Answer
  | none
  | stored (r : Except StorageError Unit)
  | data (r : Except StorageError (List UInt8))
  | position (r : Except StorageError ℕ)

/-- A request arrives, or asks for its storage, where reading the body once more gives `rest`; it uses its storage or ends;
a file is put into the cache, or removed; or the configuration changes. -/
inductive Op
  | request (id : ℕ) (contentLength : Int) (body : Body) (requestBody : Option (List UInt8))
  | getRequestBody (id : ℕ) (rest : Body) (diskFails : Bool)
  | read (id n : ℕ)
  | seek (id : ℕ) (offset : Int) (whence : Whence)
  | bytes (id : ℕ)
  | cleanupBodyStorage (id : ℕ)
  | cacheFile (size : ℕ)
  | closeFile (size : ℕ)
  | setDiskCacheConfig (config : DiskCacheConfig)

/-- `MaxRequestBodyMB` in bytes. -/
def maxBytes (maxRequestBodyMB : Int) : ℕ :=
  (megabytes (if maxRequestBodyMB ≤ 0 then 128 else maxRequestBodyMB)).toNat

namespace State

/-- What is left of the body of a request, and its storage, change. -/
def store (id : ℕ) (rest : Option Body) (storage : Option Storage) (s : State) : State :=
  { s with contexts := s.contexts.modify id (fun c => { c with rest, storage }) fun _ => rfl }

/-- A call of the storage of a request, if it has one. -/
def call (id : ℕ) (f : Storage → DiskCacheStats → Answer × Option Storage × DiskCacheStats) (s : State) : Answer × State :=
  match s.contexts.get? id with
  | none => (.none, s)
  | some c =>
    match c.storage with
    | none => (.none, s)
    | some st =>
      let r := f st s.stats
      (r.1, { s with stats := r.2.2 }.store id c.rest r.2.1)

def getRequestBody (maxRequestBodyMB : Int) (id : ℕ) (rest : Body) (diskFails : Bool) (s : State) : Answer × State :=
  match s.contexts.get? id with
  | none => (.none, s)
  | some c =>
    match c.storage with
    | some st => (.stored ((st.seek 0 .start).1.map fun _ => ()), s.store id c.rest (some (st.seek 0 .start).2))
    | none =>
      match c.requestBody with
      | some b =>
        let r := createBodyStorage s.config diskFails b s.stats
        (.stored (.ok ()), { s with stats := r.2 }.store id c.rest (some r.1))
      | none =>
        match createBodyStorageFromReader s.config diskFails (c.rest.getD c.body) c.contentLength
            (maxBytes maxRequestBodyMB) s.stats with
        | .error e => (.stored (.error e), s.store id (some rest) none)
        | .ok r => (.stored (.ok ()), { s with stats := r.2 }.store id (some rest) (some r.1))

/-- `Close`, which counts a storage out, but only once. -/
def close (st : Storage) (x : DiskCacheStats) : DiskCacheStats :=
  if st.closed then x
  else if st.isDisk then x.decrementDiskFiles st.size
  else x.decrementMemoryBuffers st.size

end State

def answer (maxRequestBodyMB : Int) (s : State) : Op → Answer × State
  | .request id contentLength body requestBody =>
    (.none, { s with contexts := s.contexts.insertNew { id, contentLength, body, requestBody } })
  | .getRequestBody id rest diskFails => s.getRequestBody maxRequestBodyMB id rest diskFails
  | .read id n => s.call id fun st x => (.data (st.read n).1, some (st.read n).2, x)
  | .seek id offset whence => s.call id fun st x => (.position (st.seek offset whence).1, some (st.seek offset whence).2, x)
  | .bytes id => s.call id fun st x => (.data st.bytes.1, some st.bytes.2, x)
  | .cleanupBodyStorage id => s.call id fun st x => (.none, none, State.close st x)
  | .cacheFile size =>
    (.none, if s.stats.shouldUseDiskCache s.config size then
      { s with stats := s.stats.incrementDiskFiles size, files := size :: s.files } else s)
  | .closeFile size =>
    (.none, if size ∈ s.files then
      { s with stats := s.stats.decrementDiskFiles size, files := s.files.erase size } else s)
  | .setDiskCacheConfig config => (.none, { s with config })

def step (maxRequestBodyMB : Int) (s : State) (o : Op) : State := (answer maxRequestBodyMB s o).2

/-- What the callers are told along a run. -/
def answers (maxRequestBodyMB : Int) : State → List Op → List Answer
  | _, [] => []
  | s, o :: ops => (answer maxRequestBodyMB s o).1 :: answers maxRequestBodyMB (step maxRequestBodyMB s o) ops

/-! ## What a storage gives -/

namespace Storage

section
variable {st : Storage} {n : ℕ}

/-- The storage in memory of the same data. -/
def inMemory (st : Storage) : Storage := { st with isDisk := false }

/-- The size of a file is that of what it holds. -/
def Sound (st : Storage) : Prop := st.size = st.data.length

theorem atEnd_inMemory (hn : n ≠ 0) : st.inMemory.AtEnd n ↔ st.AtEnd n := by
  unfold AtEnd inMemory
  rw [if_neg Bool.false_ne_true]
  split
  · rw [List.take_eq_nil_iff, List.drop_eq_nil_iff]
    exact ⟨fun h => ⟨.inr h, hn⟩, fun h => h.1.resolve_left hn⟩
  · rfl

theorem read_inMemory (st : Storage) (hn : n ≠ 0) : st.inMemory.read n = ((st.read n).1, (st.read n).2.inMemory) := by
  unfold read
  simp only [atEnd_inMemory hn]
  split
  next h => rw [if_pos (show st.closed = true from h)]
  next h =>
    rw [if_neg (show ¬ st.closed = true from h)]
    split <;> rfl

theorem seek_inMemory (st : Storage) (offset : Int) (whence : Whence) :
    st.inMemory.seek offset whence = ((st.seek offset whence).1, (st.seek offset whence).2.inMemory) := by
  unfold seek
  split
  next h => rw [if_pos (show st.closed = true from h)]
  next h =>
    rw [if_neg (show ¬ st.closed = true from h)]
    by_cases hneg : (whence.base st.position st.data.length : Int) + offset < 0
    · exact (if_pos hneg).trans (by rw [if_pos hneg])
    · exact (if_neg hneg).trans (by rw [if_neg hneg]; rfl)

theorem bytes_eq (h : st.Sound) : st.bytes = (if st.closed then .error .storageClosed else .ok st.data, st) := by
  unfold bytes
  rw [h, List.take_length]
  split
  · rfl
  · rw [if_neg (lt_irrefl _), ite_self]

/-- A call leaves a storage as it is, but for its position. -/
theorem read_eq (st : Storage) (n : ℕ) : ∃ position, (st.read n).2 = { st with position } := by
  unfold read
  split
  · exact ⟨_, rfl⟩
  · split <;> exact ⟨_, rfl⟩

theorem seek_eq (st : Storage) (offset : Int) (whence : Whence) : ∃ position, (st.seek offset whence).2 = { st with position } := by
  unfold seek
  split
  · exact ⟨_, rfl⟩
  · dsimp only
    split <;> exact ⟨_, rfl⟩

theorem bytes_position (st : Storage) : ∃ position, st.bytes.2 = { st with position } := by
  unfold bytes
  split
  · exact ⟨_, rfl⟩
  · split
    · exact ⟨_, rfl⟩
    · split <;> exact ⟨_, rfl⟩

/-- A read from an open storage fails at the end only, and moves on behind what it gives. -/
theorem read_cases (hopen : st.closed = false) :
    (∃ e, (st.read n).1 = .error e) ∧ st.data.length ≤ st.position ∨
      st.read n = (.ok ((st.data.drop st.position).take n),
        { st with position := st.position + ((st.data.drop st.position).take n).length }) := by
  unfold read
  rw [hopen, if_neg Bool.false_ne_true]
  split
  next hend =>
    refine .inl ⟨⟨_, rfl⟩, ?_⟩
    unfold AtEnd at hend
    split at hend
    · rw [List.take_eq_nil_iff, List.drop_eq_nil_iff] at hend
      exact hend.1.resolve_left hend.2
    · exact hend
  next => exact .inr rfl

/-- Reads give together what follows the position. -/
theorem reads_eq (ns : List ℕ) (hopen : st.closed = false) :
    st.reads ns = (st.data.drop st.position).take ns.sum := by
  induction ns generalizing st with
  | nil => rfl
  | cons n ns ih =>
    rw [reads, List.sum_cons, List.take_add, List.drop_drop]
    rcases read_cases (n := n) hopen with ⟨⟨e, he⟩, hend⟩ | hok
    · obtain ⟨r, st', hr⟩ : ∃ r st', st.read n = (r, st') := ⟨_, _, rfl⟩
      rw [hr] at he ⊢
      obtain rfl : r = .error e := he
      rw [List.drop_eq_nil_of_le hend, List.drop_eq_nil_of_le (hend.trans (Nat.le_add_right _ _)), List.take_nil, List.take_nil]
      rfl
    · rw [hok]
      dsimp only
      rw [@ih { st with position := st.position + ((st.data.drop st.position).take n).length } hopen, List.length_take, List.length_drop]
      dsimp only
      congr 1
      by_cases hle : n ≤ st.data.length - st.position
      · rw [Nat.min_eq_left hle]
      · rw [List.drop_eq_nil_of_le (by omega), List.drop_eq_nil_of_le (by omega)]

end

end Storage

/-! ## How a storage is made -/

/-- What a file is counted with. -/
def fileUsage (size : ℕ) : Int × Int × Int × Int := (1, size, 0, 0)

def Storage.usage (st : Storage) : Int × Int × Int × Int :=
  if st.isDisk then fileUsage st.size else (0, 0, 1, st.size)

def DiskCacheStats.usage (x : DiskCacheStats) : Int × Int × Int × Int :=
  (x.activeDiskFiles, x.currentDiskUsageBytes, x.activeMemoryBuffers, x.currentMemoryUsageBytes)

/-- A storage was made of some data, and counted. -/
structure Created (data : List UInt8) (x : DiskCacheStats) (r : Storage × DiskCacheStats) : Prop where
  made : ∃ isDisk, r.1 = { isDisk, data, size := data.length }
  usage : r.2.usage = x.usage + r.1.usage

/-- What is read of the body of a request. -/
def Body.received (maxBytes : ℕ) (b : Body) : Except StorageError (List UInt8) :=
  match b.readAll (maxBytes + 1) with
  | .error e => .error e
  | .ok data => if maxBytes < data.length then .error .requestBodyTooLarge else .ok data

section
variable {x : DiskCacheStats} {data : List UInt8}

theorem newMemoryStorage_created : Created data x (newMemoryStorage data x) :=
  ⟨⟨_, rfl⟩, by simp [newMemoryStorage, DiskCacheStats.usage, DiskCacheStats.incrementMemoryBuffers, Storage.usage]⟩

theorem usage_incrementDiskFiles (size : ℕ) : (x.incrementDiskFiles size).usage = x.usage + fileUsage size := by
  simp [DiskCacheStats.usage, DiskCacheStats.incrementDiskFiles, fileUsage]

theorem newDiskStorage_created : Created data x (newDiskStorage data x) :=
  ⟨⟨_, rfl⟩, usage_incrementDiskFiles data.length⟩

theorem Created.hit {r : Storage × DiskCacheStats} (h : Created data x r) : Created data x (hit r) := by
  refine ⟨h.made, ?_⟩
  rw [show (BodyStorage.hit r).1 = r.1 from rfl, ← h.usage]
  unfold BodyStorage.hit
  dsimp only
  split <;> rfl

theorem createBodyStorage_created (config : DiskCacheConfig) (diskFails : Bool) (data : List UInt8) (x : DiskCacheStats) :
    Created data x (createBodyStorage config diskFails data x) := by
  unfold createBodyStorage
  split
  · split
    · exact newMemoryStorage_created
    · exact newDiskStorage_created
  · exact newMemoryStorage_created

/-- The storage of a body holds what is received of it, unless the disk fails. -/
theorem createBodyStorageFromReader_spec (config : DiskCacheConfig) (diskFails : Bool) (x : DiskCacheStats) (reader : Body)
    (contentLength : Int) (maxBytes : ℕ) :
    (config.enabled = true ∧ diskFails = true ∧
      createBodyStorageFromReader config diskFails reader contentLength maxBytes x = .error .diskFailed) ∨
    (∃ e, reader.received maxBytes = .error e ∧
      createBodyStorageFromReader config diskFails reader contentLength maxBytes x = .error e) ∨
    ∃ data r, reader.received maxBytes = .ok data ∧ Created data x r ∧
      createBodyStorageFromReader config diskFails reader contentLength maxBytes x = .ok r := by
  unfold createBodyStorageFromReader newDiskStorageFromReader Body.received
  split
  next hdisk =>
    cases diskFails with
    | true => exact .inl ⟨hdisk.1, rfl, rfl⟩
    | false =>
      refine .inr ?_
      rw [if_neg Bool.false_ne_true]
      cases reader.readAll (maxBytes + 1) with
      | error e => exact .inl ⟨e, rfl, rfl⟩
      | ok data =>
        dsimp only
        split
        · exact .inl ⟨_, rfl, rfl⟩
        · exact .inr ⟨data, _, rfl, newDiskStorage_created.hit, rfl⟩
  next =>
    refine .inr ?_
    cases reader.readAll (maxBytes + 1) with
    | error e => exact .inl ⟨e, rfl, rfl⟩
    | ok data =>
      dsimp only
      split
      · exact .inl ⟨_, rfl, rfl⟩
      · exact .inr ⟨data, _, rfl, (createBodyStorage_created config diskFails data x).hit, rfl⟩

theorem content_of_received {reader : Body} {maxBytes : ℕ} (h : reader.received maxBytes = .ok data) : data = reader.content := by
  unfold Body.received Body.readAll at h
  split at h
  · cases h
  next data' hread =>
    split at hread
    · cases hread
    · split at h
      · cases h
      next hle =>
        cases h
        cases hread
        rw [List.length_take] at hle
        exact List.take_of_length_le (by omega)

end

/-! ## What a step does -/

/-- A request whose body was read asks for its storage only as long as it has one. -/
def Asks (s : State) : Op → Prop
  | .getRequestBody id _ _ => ∀ c, s.contexts.get? id = some c → c.storage = none → c.requestBody = none → c.rest = none
  | _ => True

/-- How a call changes the storage of a request and the counters: it moves on, is not made, is made, or closed. -/
inductive Change (asks : Prop) (c : Context) (x : DiskCacheStats) : Option Storage → DiskCacheStats → Prop
  | moved {st : Storage} (position : ℕ) (h : c.storage = some st) : Change asks c x (some { st with position }) x
  | failed (h : c.storage = none) : Change asks c x none x
  | made {data : List UInt8} {r : Storage × DiskCacheStats} (h : c.storage = none) (hr : Created data x r)
    (hdata : asks → data = c.sent) : Change asks c x (some r.1) r.2
  | closed {st : Storage} (h : c.storage = some st) : Change asks c x none (State.close st x)

/-- Nothing changes, or what is kept of one request. -/
def Changed (asks : Prop) (s s' : State) : Prop :=
  s' = s ∨ ∃ id c rest storage x, s.contexts.get? id = some c ∧ Change asks c s.stats storage x ∧
    s' = { s with stats := x }.store id rest storage

/-- Each storage that is kept satisfies `P` with what its request has sent. -/
def State.All (P : List UInt8 → Storage → Prop) (s : State) : Prop :=
  ∀ id c st, s.contexts.get? id = some c → c.storage = some st → P c.sent st

def Opened (_ : List UInt8) (st : Storage) : Prop := st.Sound ∧ st.closed = false

def Keeps (sent : List UInt8) (st : Storage) : Prop := st.Sound ∧ st.closed = false ∧ st.data = sent

def Context.usage (c : Context) : Int × Int × Int × Int :=
  match c.storage with
  | none => 0
  | some st => st.usage

/-- What is kept: the storages of the requests, and the other files. -/
def State.usage (s : State) : Int × Int × Int × Int :=
  (s.contexts.rows.map Context.usage).sum + (s.files.map fileUsage).sum

section
variable {maxMB : Int} {s s' : State} {o : Op} {P : List UInt8 → Storage → Prop} {asks : Prop} {id : ℕ} {c : Context}
  {st st' : Storage} {x : DiskCacheStats} {rest : Body} {diskFails : Bool}

theorem get?_store (rest : Option Body) (storage : Option Storage) (id' : ℕ) : (s.store id rest storage).contexts.get? id' =
    if id' = id then (s.contexts.get? id').map fun c => { c with rest, storage } else s.contexts.get? id' := by
  unfold State.store
  rw [Table.get?_modify]

theorem Change.of_moved (hst : c.storage = some st) (h : ∃ position, st' = { st with position }) :
    Change asks c x (some st') x := by
  obtain ⟨position, rfl⟩ := h
  exact .moved position hst

theorem changed_call {f : Storage → DiskCacheStats → Answer × Option Storage × DiskCacheStats}
    (hf : ∀ c st x, c.storage = some st → Change asks c x (f st x).2.1 (f st x).2.2) : Changed asks s (s.call id f).2 := by
  unfold State.call
  split
  · exact .inl rfl
  next c hc =>
    split
    · exact .inl rfl
    next st hst => exact .inr ⟨id, c, _, _, _, hc, hf c st s.stats hst, rfl⟩

theorem changed_getRequestBody :
    Changed (Asks s (.getRequestBody id rest diskFails)) s (s.getRequestBody maxMB id rest diskFails).2 := by
  unfold State.getRequestBody
  split
  · exact .inl rfl
  next c hc =>
  split
  next st hst =>
    obtain ⟨position, heq⟩ := st.seek_eq 0 .start
    dsimp only
    rw [heq]
    exact .inr ⟨id, c, _, _, _, hc, .moved position hst, rfl⟩
  next hnone =>
  split
  next b hb =>
    have hsent : b = c.sent := (congrArg (Option.getD · c.body.content) hb).symm
    exact .inr ⟨id, c, _, _, _, hc, .made hnone (createBodyStorage_created s.config diskFails b s.stats) fun _ => hsent, rfl⟩
  next hb =>
  rcases createBodyStorageFromReader_spec s.config diskFails s.stats (c.rest.getD c.body) c.contentLength
    (maxBytes maxMB) with ⟨-, -, heq⟩ | ⟨e, -, heq⟩ | ⟨data, r, hreceived, hr, heq⟩
  · rw [heq]
    exact .inr ⟨id, c, _, _, _, hc, .failed hnone, rfl⟩
  · rw [heq]
    exact .inr ⟨id, c, _, _, _, hc, .failed hnone, rfl⟩
  · rw [heq]
    refine .inr ⟨id, c, _, _, _, hc, .made hnone hr fun hasks => ?_, rfl⟩
    rw [content_of_received hreceived, hasks c hc hnone hb]
    exact (congrArg (Option.getD · c.body.content) hb).symm

/-- A step changes what is kept of one request, lets one arrive, counts a file in or out, or sets a configuration. -/
theorem step_cases (maxMB : Int) (s : State) (o : Op) : Changed (Asks s o) s (step maxMB s o) ∨
    (∃ c, c.storage = none ∧ step maxMB s o = { s with contexts := s.contexts.insertNew c }) ∨
    (∃ size, step maxMB s o = { s with stats := s.stats.incrementDiskFiles size, files := size :: s.files }) ∨
    (∃ size ∈ s.files, step maxMB s o = { s with stats := s.stats.decrementDiskFiles size, files := s.files.erase size }) ∨
    ∃ config, step maxMB s o = { s with config } := by
  cases o with
  | request => exact .inr (.inl ⟨_, rfl, rfl⟩)
  | getRequestBody => exact .inl changed_getRequestBody
  | read id n => exact .inl (changed_call fun c st x hst => .of_moved hst (st.read_eq n))
  | seek id offset whence => exact .inl (changed_call fun c st x hst => .of_moved hst (st.seek_eq offset whence))
  | bytes => exact .inl (changed_call fun c st x hst => .of_moved hst st.bytes_position)
  | cleanupBodyStorage => exact .inl (changed_call fun c st x hst => .closed hst)
  | cacheFile size =>
    unfold step answer
    dsimp only
    split
    · exact .inr (.inr (.inl ⟨size, rfl⟩))
    · exact .inl (.inl rfl)
  | closeFile size =>
    unfold step answer
    dsimp only
    split
    next hmem => exact .inr (.inr (.inr (.inl ⟨size, hmem, rfl⟩)))
    next => exact .inl (.inl rfl)
  | setDiskCacheConfig config => exact .inr (.inr (.inr (.inr ⟨config, rfl⟩)))

/-! ## What the counters count -/

theorem fileUsage_nonneg (size : ℕ) : 0 ≤ fileUsage size := by
  simp [fileUsage, Prod.le_def]

theorem Context.usage_nonneg (c : Context) : 0 ≤ c.usage := by
  unfold Context.usage Storage.usage
  split
  · exact le_refl 0
  · split
    · exact fileUsage_nonneg _
    · simp [Prod.le_def]

theorem sum_usage_nonneg (l : List Context) : 0 ≤ (l.map Context.usage).sum :=
  List.sum_nonneg fun x hx => by obtain ⟨c, -, rfl⟩ := List.mem_map.1 hx; exact c.usage_nonneg

theorem sum_fileUsage_nonneg (l : List ℕ) : 0 ≤ (l.map fileUsage).sum :=
  List.sum_nonneg fun x hx => by obtain ⟨size, -, rfl⟩ := List.mem_map.1 hx; exact fileUsage_nonneg size

theorem usage_store (rest : Option Body) (storage : Option Storage) (hc : s.contexts.get? id = some c) :
    (s.store id rest storage).usage + c.usage = s.usage + { c with rest, storage }.usage := by
  obtain ⟨hmem, rfl⟩ := Table.get?_eq_some.1 hc
  obtain ⟨others, hrows, -, hmodify⟩ := Table.exists_rest hmem
  have hstored : (s.store c.id rest storage).contexts.rows.Perm ({ c with rest, storage } :: others) :=
    hmodify (fun c => { c with rest, storage }) fun _ => rfl
  unfold State.usage
  rw [(hrows.map _).sum_eq, (hstored.map _).sum_eq, List.map_cons, List.map_cons, List.sum_cons, List.sum_cons]
  show _ + (s.files.map fileUsage).sum + _ = _
  abel

theorem usage_le (hc : s.contexts.get? id = some c) : c.usage ≤ s.usage := by
  obtain ⟨a, b, hrows⟩ := List.append_of_mem (Table.get?_eq_some.1 hc).1
  unfold State.usage
  rw [hrows, List.map_append, List.map_cons, List.sum_append, List.sum_cons, add_left_comm, add_assoc]
  exact le_add_of_nonneg_right (add_nonneg (add_nonneg (sum_usage_nonneg a) (sum_usage_nonneg b)) (sum_fileUsage_nonneg _))

/-- A file is counted out, where the counters count it. -/
theorem usage_decrementDiskFiles {size : ℕ} (hle : fileUsage size ≤ x.usage) :
    (x.decrementDiskFiles size).usage + fileUsage size = x.usage := by
  obtain ⟨hfiles, hbytes, -⟩ : 1 ≤ x.activeDiskFiles ∧ (size : Int) ≤ x.currentDiskUsageBytes ∧ _ := hle
  unfold DiskCacheStats.usage DiskCacheStats.decrementDiskFiles fileUsage
  rw [if_neg (by omega), if_neg (by omega)]
  simp

theorem usage_close (hopen : st.closed = false) (hle : st.usage ≤ x.usage) : (State.close st x).usage + st.usage = x.usage := by
  unfold State.close
  unfold Storage.usage at *
  rw [hopen, if_neg Bool.false_ne_true]
  split at hle
  next hdisk =>
    rw [if_pos hdisk, if_pos hdisk]
    exact usage_decrementDiskFiles hle
  next hmemory =>
    rw [if_neg hmemory, if_neg hmemory]
    simp [DiskCacheStats.usage, DiskCacheStats.decrementMemoryBuffers]

/-- A change of the storage of a request is counted. -/
theorem Change.usage {storage : Option Storage} {x' : DiskCacheStats} (h : Change asks c x storage x') (rest : Option Body)
    (hopened : ∀ st, c.storage = some st → st.closed = false) (hle : c.usage ≤ x.usage) :
    x'.usage + c.usage = x.usage + { c with rest, storage }.usage := by
  unfold Context.usage at *
  cases h with
  | moved position h =>
    rw [h]
    rfl
  | failed h => rw [h]
  | made h hr =>
    rw [h, hr.usage]
    exact add_zero _
  | closed h =>
    rw [h] at hle ⊢
    exact (usage_close (hopened _ h) hle).trans (add_zero _).symm

theorem Changed.usage (h : Changed asks s s') (husage : s.stats.usage = s.usage) (hopened : s.All Opened) :
    s'.stats.usage = s'.usage := by
  obtain rfl | ⟨id, c, rest, storage, x, hc, hchange, rfl⟩ := h
  · exact husage
  · have hcounted := hchange.usage rest (fun st hst => (hopened id c st hc hst).2) (husage ▸ usage_le hc)
    rw [husage] at hcounted
    exact add_right_cancel (hcounted.trans (usage_store (s := { s with stats := x }) rest storage hc).symm)

/-- A step keeps what `P` says, if the calls of a storage do and it holds of a storage that is made. -/
theorem State.All.step (h : s.All P) (hmoved : ∀ sent st position, P sent st → P sent { st with position })
    (hmade : ∀ sent isDisk, P sent { isDisk, data := sent, size := sent.length })
    (hsent : Asks s o ∨ ∀ sent sent' st, P sent st → P sent' st) : (step maxMB s o).All P := by
  rcases step_cases maxMB s o with (heq | ⟨id, c, rest, storage, x, hc, hchange, heq⟩) | ⟨c, hnone, heq⟩ | ⟨size, heq⟩ |
    ⟨size, -, heq⟩ | ⟨config, heq⟩
  · rw [heq]
    exact h
  · intro id' c' st hc' hst
    rw [heq, get?_store] at hc'
    split at hc'
    next he =>
      obtain rfl := he
      rw [show s.contexts.get? id' = some c from hc] at hc'
      obtain rfl := Option.some.inj hc'
      show P c.sent st
      cases hchange with
      | moved position h' =>
        obtain rfl := Option.some.inj hst
        exact hmoved _ _ position (h id' c _ hc h')
      | failed => cases hst
      | made h' hr hdata =>
        obtain rfl := Option.some.inj hst
        obtain ⟨isDisk, hr⟩ := hr.made
        rw [hr]
        rcases hsent with hasks | hany
        · exact hdata hasks ▸ hmade _ isDisk
        · exact hany _ _ _ (hmade _ isDisk)
      | closed => cases hst
    next => exact h id' c' st hc' hst
  · intro id' c' st hc' hst
    rw [heq] at hc'
    rcases Table.mem_insertNew.1 (Table.get?_eq_some.1 hc').1 with hmem | ⟨rfl, -⟩
    · exact h c'.id c' st (Table.get?_key hmem) hst
    · rw [hnone] at hst
      cases hst
  all_goals
    rw [heq]
    exact h

theorem all_opened (h : s.All Opened) : (step maxMB s o).All Opened :=
  h.step (fun _ _ _ hst => hst) (fun _ _ => ⟨rfl, rfl⟩) (.inr fun _ _ _ hst => hst)

theorem all_keeps (h : s.All Keeps) (hasks : Asks s o) : (step maxMB s o).All Keeps :=
  h.step (fun _ _ _ hst => hst) (fun _ _ => ⟨rfl, rfl, rfl⟩) (.inl hasks)

/-- A request that is given a storage is given one at its start. -/
theorem getRequestBody_start (h : s.All Opened)
    (hc : s.contexts.get? id = some c) (hok : (s.getRequestBody maxMB id rest diskFails).1 = .stored (.ok ())) :
    ∃ c' st, (s.getRequestBody maxMB id rest diskFails).2.contexts.get? id = some c' ∧ c'.sent = c.sent ∧
      c'.storage = some st ∧ st.position = 0 := by
  unfold State.getRequestBody at hok ⊢
  rw [hc] at hok ⊢
  dsimp only at hok ⊢
  have hstored {x : DiskCacheStats} {rest : Option Body} {st : Storage} (hst : st.position = 0) :
      ∃ c' st', ({ s with stats := x }.store id rest (some st)).contexts.get? id = some c' ∧ c'.sent = c.sent ∧
        c'.storage = some st' ∧ st'.position = 0 :=
    ⟨_, st, (get?_store rest (some st) id).trans ((if_pos rfl).trans (congrArg _ hc)), rfl, rfl, hst⟩
  split
  next st hst =>
    refine hstored ?_
    unfold Storage.seek
    rw [(h id c st hc hst).2, if_neg Bool.false_ne_true]
    rfl
  next hnone =>
  rw [hnone] at hok
  split
  next b hb =>
    obtain ⟨isDisk, hr⟩ := (createBodyStorage_created s.config diskFails b s.stats).made
    exact hstored (by rw [hr])
  next hb =>
  rw [hb] at hok
  dsimp only at hok
  rcases createBodyStorageFromReader_spec s.config diskFails s.stats (c.rest.getD c.body) c.contentLength
    (maxBytes maxMB) with ⟨-, -, heq⟩ | ⟨e, -, heq⟩ | ⟨data, r, -, hr, heq⟩
  · rw [heq] at hok
    cases hok
  · rw [heq] at hok
    cases hok
  · rw [heq]
    obtain ⟨isDisk, hr⟩ := hr.made
    exact hstored (by rw [hr])

/-- What a request is given holds what its client has sent, and gives it from its start. -/
def Replays (maxMB : Int) (s : State) : Prop :=
  ∀ id rest diskFails c, Asks s (.getRequestBody id rest diskFails) → s.contexts.get? id = some c →
    (s.getRequestBody maxMB id rest diskFails).1 = .stored (.ok ()) →
      ∃ st, ((s.getRequestBody maxMB id rest diskFails).2.contexts.get? id).bind (·.storage) = some st ∧
        st.bytes.1 = .ok c.sent ∧ ∀ ns, st.reads ns = c.sent.take ns.sum

theorem State.All.replays (h : s.All Keeps) : Replays maxMB s := by
  intro id rest diskFails c hasks hc hok
  have hopened : s.All Opened := fun id c st hc hst => ⟨(h id c st hc hst).1, (h id c st hc hst).2.1⟩
  obtain ⟨c', st, hc', hsent, hst, hstart⟩ := getRequestBody_start hopened hc hok
  obtain ⟨hsound, hopen, hdata⟩ := all_keeps h hasks id c' st hc' hst
  refine ⟨st, by rw [hc', Option.bind_some, hst], ?_, fun ns => ?_⟩
  · rw [Storage.bytes_eq hsound, hopen, hdata, hsent]
    rfl
  · rw [Storage.reads_eq ns hopen, hstart, hdata, hsent, List.drop_zero]

theorem all_start {config : DiskCacheConfig} : State.All P { config } :=
  fun _ _ _ hc => nomatch hc

end

/-! ## Whatever the configuration is -/

/-- A call that reads into no empty buffer, and for which no file fails to be made. -/
def Op.Plain : Op → Prop
  | .getRequestBody _ _ diskFails => diskFails = false
  | .read _ n => n ≠ 0
  | _ => True

/-- The call, where other configurations are set. -/
def Op.configured (f : DiskCacheConfig → DiskCacheConfig) : Op → Op
  | .setDiskCacheConfig config => .setDiskCacheConfig (f config)
  | o => o

def Context.inMemory (c : Context) : Context := { c with storage := c.storage.map Storage.inMemory }

/-- The states keep the same, each somewhere. -/
def Agrees (s s' : State) : Prop :=
  ∀ id, (s.contexts.get? id).map Context.inMemory = (s'.contexts.get? id).map Context.inMemory

section
variable {maxMB : Int} {s s' : State} {o : Op} {id : ℕ} {c c' : Context} {st st' : Storage}
  {f : DiskCacheConfig → DiskCacheConfig}

theorem Agrees.cases (h : Agrees s s') (id : ℕ) : s.contexts.get? id = none ∧ s'.contexts.get? id = none ∨
    ∃ c c', s.contexts.get? id = some c ∧ s'.contexts.get? id = some c' ∧ c.inMemory = c'.inMemory := by
  have hid := h id
  cases hc : s.contexts.get? id with
  | none =>
    rw [hc] at hid
    exact .inl ⟨rfl, Option.map_eq_none_iff.1 hid.symm⟩
  | some c =>
    rw [hc] at hid
    obtain ⟨c', hc', heq⟩ := Option.map_eq_some_iff.1 hid.symm
    exact .inr ⟨c, c', rfl, hc', heq.symm⟩

theorem Agrees.store {x x' : DiskCacheStats} (h : Agrees s s') (rest : Option Body) {storage storage' : Option Storage}
    (hst : storage.map Storage.inMemory = storage'.map Storage.inMemory) :
    Agrees ({ s with stats := x }.store id rest storage) ({ s' with stats := x' }.store id rest storage') := by
  intro id'
  rw [get?_store, get?_store]
  split
  · rcases h.cases id' with ⟨hc, hc'⟩ | ⟨c, c', hc, hc', heq⟩
    · rw [hc, hc']
      rfl
    · rw [hc, hc']
      simp only [Context.inMemory, Context.mk.injEq] at heq
      simp [Context.inMemory, heq, hst]
  · exact h id'

theorem Agrees.call {g : Storage → DiskCacheStats → Answer × Option Storage × DiskCacheStats} (h : Agrees s s')
    (hopened : s.All Opened) (hopened' : s'.All Opened)
    (hg : ∀ st st' x x', st.Sound → st'.Sound → st.inMemory = st'.inMemory →
      (g st x).1 = (g st' x').1 ∧ (g st x).2.1.map Storage.inMemory = (g st' x').2.1.map Storage.inMemory) :
    (s.call id g).1 = (s'.call id g).1 ∧ Agrees (s.call id g).2 (s'.call id g).2 := by
  unfold State.call
  rcases h.cases id with ⟨hc, hc'⟩ | ⟨c, c', hc, hc', heq⟩
  · rw [hc, hc']
    exact ⟨rfl, h⟩
  simp only [Context.inMemory, Context.mk.injEq] at heq
  obtain ⟨-, -, -, hrest, -, hstorage⟩ := heq
  rw [hc, hc']
  dsimp only
  rw [hrest]
  cases hst : c.storage with
  | none =>
    rw [hst] at hstorage
    rw [Option.map_eq_none_iff.1 hstorage.symm]
    exact ⟨rfl, h⟩
  | some st =>
    rw [hst] at hstorage
    obtain ⟨st', hst', heq'⟩ := Option.map_eq_some_iff.1 hstorage.symm
    rw [hst']
    obtain ⟨hanswer, hkept⟩ := hg st st' s.stats s'.stats (hopened id c st hc hst).1 (hopened' id c' st' hc' hst').1 heq'.symm
    exact ⟨hanswer, h.store c'.rest hkept⟩

theorem made_agrees {data : List UInt8} {x x' : DiskCacheStats} {r r' : Storage × DiskCacheStats} (h : Created data x r)
    (h' : Created data x' r') : r.1.inMemory = r'.1.inMemory := by
  obtain ⟨isDisk, hr⟩ := h.made
  obtain ⟨isDisk', hr'⟩ := h'.made
  rw [hr, hr']
  rfl

theorem Agrees.getRequestBody (h : Agrees s s') (rest : Body) :
    (s.getRequestBody maxMB id rest false).1 = (s'.getRequestBody maxMB id rest false).1 ∧
      Agrees (s.getRequestBody maxMB id rest false).2 (s'.getRequestBody maxMB id rest false).2 := by
  unfold State.getRequestBody
  rcases h.cases id with ⟨hc, hc'⟩ | ⟨c, c', hc, hc', heq⟩
  · rw [hc, hc']
    exact ⟨rfl, h⟩
  rw [hc, hc']
  obtain ⟨id₀, contentLength, body, rest₀, requestBody, storage⟩ := c
  obtain ⟨id₁, contentLength', body', rest₁, requestBody', storage'⟩ := c'
  simp only [Context.inMemory, Context.mk.injEq] at heq
  obtain ⟨-, rfl, rfl, rfl, rfl, hstorage⟩ := heq
  dsimp only
  cases storage with
  | some st =>
    obtain ⟨st', rfl, heq'⟩ := Option.map_eq_some_iff.1 hstorage.symm
    have hseek := st.seek_inMemory 0 .start
    rw [← heq', Storage.seek_inMemory] at hseek
    obtain ⟨hanswer, hkept⟩ := Prod.mk.inj hseek
    dsimp only
    rw [hanswer]
    exact ⟨rfl, h.store rest₀ (congrArg some hkept.symm)⟩
  | none =>
    rw [Option.map_eq_none_iff.1 hstorage.symm]
    dsimp only
    cases requestBody with
    | some b =>
      have hmade := made_agrees (createBodyStorage_created s.config false b s.stats) (createBodyStorage_created s'.config false b s'.stats)
      exact ⟨rfl, h.store rest₀ (congrArg some hmade)⟩
    | none =>
      dsimp only
      rcases createBodyStorageFromReader_spec s.config false s.stats (rest₀.getD body) contentLength (maxBytes maxMB) with
        ⟨-, hfails, -⟩ | ⟨e, hreceived, heq⟩ | ⟨data, r, hreceived, hr, heq⟩
      · cases hfails
      all_goals
        rcases createBodyStorageFromReader_spec s'.config false s'.stats (rest₀.getD body) contentLength (maxBytes maxMB) with
          ⟨-, hfails, -⟩ | ⟨e', hreceived', heq'⟩ | ⟨data', r', hreceived', hr', heq'⟩
        · cases hfails
        all_goals
          rw [heq, heq']
          cases hreceived.symm.trans hreceived'
      · exact ⟨rfl, h.store (some rest) rfl⟩
      · exact ⟨rfl, h.store (some rest) (congrArg some (made_agrees hr hr'))⟩

/-- A call is answered alike, and leaves what agrees. -/
theorem Agrees.answer (maxMB : Int) (f : DiskCacheConfig → DiskCacheConfig) (h : Agrees s s') (hopened : s.All Opened) (hopened' : s'.All Opened) (ho : o.Plain) :
    (answer maxMB s o).1 = (answer maxMB s' (o.configured f)).1 ∧ Agrees (step maxMB s o) (step maxMB s' (o.configured f)) := by
  cases o with
  | request id contentLength body requestBody =>
    refine ⟨rfl, fun id' => ?_⟩
    show ((s.contexts.insertNew _).get? id').map _ = ((s'.contexts.insertNew _).get? id').map _
    rw [Table.get?_insertNew, Table.get?_insertNew]
    split
    · rcases h.cases id' with ⟨hc, hc'⟩ | ⟨c, c', hc, hc', heq⟩
      · rw [hc, hc']
      · rw [hc, hc']
        exact congrArg some heq
    · exact h id'
  | getRequestBody id rest diskFails =>
    obtain rfl : diskFails = false := ho
    exact h.getRequestBody rest
  | read id n =>
    refine h.call hopened hopened' fun st st' _ _ _ _ heq => ?_
    have hread := st.read_inMemory (n := n) ho
    rw [heq, Storage.read_inMemory st' ho] at hread
    obtain ⟨hanswer, hkept⟩ := Prod.mk.inj hread
    exact ⟨congrArg Answer.data hanswer.symm, congrArg some hkept.symm⟩
  | seek id offset whence =>
    refine h.call hopened hopened' fun st st' _ _ _ _ heq => ?_
    have hseek := st.seek_inMemory offset whence
    rw [heq, Storage.seek_inMemory] at hseek
    obtain ⟨hanswer, hkept⟩ := Prod.mk.inj hseek
    exact ⟨congrArg Answer.position hanswer.symm, congrArg some hkept.symm⟩
  | bytes id =>
    refine h.call hopened hopened' fun st st' _ _ hsound hsound' heq => ?_
    dsimp only
    rw [Storage.bytes_eq hsound, Storage.bytes_eq hsound']
    refine ⟨?_, congrArg some heq⟩
    rw [show st.closed = st'.closed from (Storage.mk.inj heq).2.2.2.2, show st.data = st'.data from (Storage.mk.inj heq).2.1]
  | cleanupBodyStorage id => exact h.call hopened hopened' fun _ _ _ _ _ _ _ => ⟨rfl, rfl⟩
  | cacheFile size =>
    refine ⟨rfl, ?_⟩
    unfold step BodyStorage.answer
    dsimp only [Op.configured]
    split <;> split <;> exact h
  | closeFile size =>
    refine ⟨rfl, ?_⟩
    unfold step BodyStorage.answer
    dsimp only [Op.configured]
    split <;> split <;> exact h
  | setDiskCacheConfig config => exact ⟨rfl, h⟩

theorem Agrees.answers {ops : List Op} (h : Agrees s s') (hopened : s.All Opened) (hopened' : s'.All Opened)
    (hops : ∀ o ∈ ops, o.Plain) : answers maxMB s ops = answers maxMB s' (ops.map (Op.configured f)) := by
  induction ops generalizing s s' with
  | nil => rfl
  | cons o ops ih =>
    obtain ⟨hanswer, hstep⟩ := h.answer maxMB f hopened hopened' (hops o List.mem_cons_self)
    exact congrArg₂ List.cons hanswer
      (ih hstep (all_opened hopened) (all_opened hopened') fun o ho => hops o (List.mem_cons_of_mem _ ho))

end

/-! ## Main results -/

section
variable (maxRequestBodyMB : Int) (config : DiskCacheConfig)

/-- Whatever the requests do and however the disk fails, a request is given what its client has sent, and all of it. -/
theorem replayed {ops : List Op} (hops : Meets (step maxRequestBodyMB) Asks { config } ops) :
    Holds (step maxRequestBodyMB) (Replays maxRequestBodyMB) { config } ops :=
  hops.holds (fun _ _ h hasks => all_keeps h hasks) (fun _ h => h.replays) all_start

theorem replayed_twice :
    let ops : List Op := [.request 1 3 ⟨[1, 2, 3], false⟩ none, .getRequestBody 1 ⟨[], false⟩ false, .read 1 2,
      .getRequestBody 1 ⟨[], false⟩ false]
    Holds (step 0) (Replays 0) { config := { enabled := true, thresholdMB := 0 } } ops := by
  intro ops
  refine replayed 0 _ ⟨trivial, fun c hc _ _ => ?_, trivial, fun c hc hst => ?_, trivial⟩
  · cases hc
    rfl
  · cases hc
    cases hst

/-- Unless a file fails to be made, no request sees where its body is kept. -/
theorem answers_configured (config' : DiskCacheConfig) (f : DiskCacheConfig → DiskCacheConfig) {ops : List Op}
    (hops : ∀ o ∈ ops, o.Plain) :
    answers maxRequestBodyMB { config } ops = answers maxRequestBodyMB { config := config' } (ops.map (Op.configured f)) :=
  Agrees.answers (fun _ => rfl) all_start all_start hops

theorem answers_configured_off :
    let ops : List Op := [.request 1 3 ⟨[1, 2, 3], false⟩ none, .getRequestBody 1 ⟨[], false⟩ false, .read 1 2, .bytes 1]
    answers 0 { config := { enabled := true, thresholdMB := 0 } } ops = answers 0 { config := {} } (ops.map (Op.configured id)) :=
  answers_configured 0 _ {} id (by simp [Op.Plain])

end

end NewApi.BodyStorage
