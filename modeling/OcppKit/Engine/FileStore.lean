import OcppKit.Engine.Queue
import OcppKit.Library.Journal
import OcppKit.Library.SortedMap

/-!
# The journal a station keeps its queue in

`OcppKit.FileStore` is a store that survives a power cut: a file to which one line of
JSON is appended for every change (`OcppKit.JournalRecord`), replayed on open
(`OcppKit.FileStore.replay`) and rewritten once its dead records outweigh the live
ones (`OcppKit.FileStore.rewrite`).

The file system enters as a value, `OcppKit.Disk`: what the two files of a journal
hold, and a *plan* that says how each of the coming steps on them goes
(`OcppKit.Outcome`). A step that fails may have put any part of its bytes into the
file first. The operations thread the disk and the store through
(`OcppKit.StoreSession`), and leave both as they are when a step fails, which is what `?`
does. A process that stops in the middle of an operation is one that does not look
at what the operation returned: the disk it leaves is that of some plan.

What JSON looks like is taken from outside (`OcppKit.JournalText`). The path and the
one with the extension `compacting` are two different files here; a file that is
being read is read to its end.
-/

namespace OcppKit

variable [Externals]

/-! ### Records -/

/-- A queued message in a form that survives a round trip through JSON. -/
structure StoredCall where
  /-- Action name. -/
  action : String
  /-- The payload as its raw JSON text. -/
  payload : String
  /-- Whether it is a `SEND`. -/
  send : Bool
  /-- How many times transmission has been attempted. -/
  attempts : ℕ
  /-- Whether the message is transaction-related. -/
  transactional : Bool
deriving DecidableEq, Repr

/-- **One line of the journal**: a record per change. -/
inductive JournalRecord where
  /-- A message was queued. -/
  | push (seq : Seq) (entry : StoredCall)
  /-- A message was delivered or definitively abandoned. -/
  | ack (seq : Seq)
  /-- A further transmission was attempted. -/
  | attempts (seq : Seq) (attempts : ℕ)
deriving DecidableEq, Repr

/-- How records look in a file, and how a line of one is read. -/
class JournalText where
  /-- A byte. -/
  Byte : Type
  [decEqByte : DecidableEq Byte]
  /-- `b'\n'`. -/
  newline : Byte
  /-- `serde_json::to_vec` of a record. -/
  toVec : JournalRecord → List Byte
  /-- What `BufRead::lines` makes of the bytes of a line: nothing when they are not
  UTF-8. -/
  lineText : List Byte → Option String
  /-- `serde_json::from_str::<JournalRecord>`. -/
  fromStr : String → Option JournalRecord
  /-- `RawValue::from_string`. -/
  rawFromString : String → Except String RawValue

attribute [reducible, instance] JournalText.decEqByte

/-- The characters `char::is_whitespace` holds of. -/
def isWhitespace (c : Char) : Bool :=
  let n := c.toNat
  (9 ≤ n && n ≤ 13) || n = 0x20 || n = 0x85 || n = 0xA0 || n = 0x1680 ||
    (0x2000 ≤ n && n ≤ 0x200A) || n = 0x2028 || n = 0x2029 || n = 0x202F || n = 0x205F ||
    n = 0x3000

/-- `text.trim().is_empty()`. -/
def isBlank (text : String) : Bool := text.toList.all isWhitespace

/-- A message as it is stored. -/
def StoredCall.fromCall (entry : QueuedCall) : StoredCall where
  action := entry.action
  payload := entry.payload.get
  send := entry.kind = MessageKind.send
  attempts := entry.attempts
  transactional := entry.transactional

variable [JournalText]

open JournalText (Byte)

/-- The format of the journal. -/
instance : Journal.Format Byte JournalRecord where
  newline := JournalText.newline
  write := JournalText.toVec
  read line :=
    match JournalText.lineText line with
    | none => .unreadable
    | some text =>
      if isBlank text then .blank
      else match JournalText.fromStr text with
        | none => .unreadable
        | some record => .record record

/-- The message that was stored. -/
def StoredCall.intoCall (stored : StoredCall) : Except StoreError QueuedCall :=
  match JournalText.rawFromString stored.payload with
  | .error error => .error ⟨"stored payload is not JSON: " ++ error⟩
  | .ok payload => .ok {
      action := stored.action
      payload := payload
      kind := if stored.send then MessageKind.send else MessageKind.call
      attempts := stored.attempts
      transactional := stored.transactional }

/-! ### Files -/

/-- How one step on a file goes: it succeeds, or fails after putting a number of its
bytes into the file. -/
inductive Outcome where
  /-- It succeeds. -/
  | ok
  /-- It fails. -/
  | failed (written : ℕ) (error : String)
deriving DecidableEq, Repr

/-- **The files of a journal**, and how the coming steps on them go; a step beyond
the plan succeeds. -/
structure Disk where
  /-- The file at the journal's path, if there is one. -/
  journal : Option (List Byte)
  /-- The file at the path with the extension `compacting`. -/
  compacting : Option (List Byte)
  /-- The outcomes of the coming steps. -/
  plan : List Outcome

/-- A computation on the files, which may fail. -/
abbrev DiskIo := EStateM StoreError Disk

/-- An error of the file system, with the path it is about. -/
def ioError (path error : String) : StoreError := ⟨path ++ ": " ++ error⟩

namespace Disk

/-- How the next step goes. -/
def next : DiskIo Outcome := fun d =>
  match d.plan with
  | [] => .ok .ok d
  | outcome :: rest => .ok outcome { d with plan := rest }

/-- A step that writes nothing: an open, a flush, a rename. -/
def step (path : String) : DiskIo Unit := do
  match ← next with
  | .ok => pure ()
  | .failed _ error => throw (ioError path error)

/-- `File::write_all`, on the file that `put` adds bytes to. -/
def writeAll (put : List Byte → Disk → Disk) (path : String) (bytes : List Byte) :
    DiskIo Unit := do
  match ← next with
  | .ok => modify (put bytes)
  | .failed written error => do
    modify (put (bytes.take written))
    throw (ioError path error)

/-- Bytes added to the file at the journal's path. -/
def putJournal (bytes : List Byte) (d : Disk) : Disk :=
  { d with journal := d.journal.map fun content => content ++ bytes }

/-- Bytes added to the file that is being written anew. -/
def putCompacting (bytes : List Byte) (d : Disk) : Disk :=
  { d with compacting := d.compacting.map fun content => content ++ bytes }

/-- One record, as one line. -/
def writeRecord (put : List Byte → Disk → Disk) (path : String) (record : JournalRecord) :
    DiskIo Unit :=
  writeAll put path (Journal.line record)

end Disk

/-! ### Replay -/

/-- The two paths of a journal: its own, and the same with the extension
`compacting`. -/
structure JournalPath where
  /-- The journal. -/
  path : String
  /-- The journal that is being written anew. -/
  temporary : String
deriving DecidableEq, Repr

/-- What a replay has seen so far. -/
structure Replay where
  /-- The messages still queued. -/
  live : SortedMap Seq QueuedCall
  /-- The next sequence number to issue. -/
  nextSeq : Seq
  /-- Every sequence number this journal has ever pushed, not just the live ones. -/
  pushed : List Seq

/-- Nothing seen yet. -/
def Replay.start : Replay := ⟨SortedMap.empty, 0, []⟩

/-- The complaint about a number that was queued twice. -/
def queuedTwice (path : String) (seq : Seq) : StoreError :=
  ⟨path ++ ": sequence number " ++ toString seq ++
    " was queued twice, which one writer cannot do — two processes have the same journal open." ++
    " Give each one its own file."⟩

/-- **One record replayed.** -/
def Replay.record (path : String) (st : Replay) : JournalRecord → Except StoreError Replay
  | .push seq entry =>
    if seq ∈ st.pushed then .error (queuedTwice path seq)
    else do
      let call ← entry.intoCall
      return { live := st.live.insert seq call, nextSeq := max st.nextSeq (seq + 1),
               pushed := seq :: st.pushed }
  | .ack seq =>
    .ok { st with live := st.live.remove seq, nextSeq := max st.nextSeq (seq + 1) }
  | .attempts seq attempts =>
    .ok { st with
      live := st.live.modify seq fun entry => { entry with attempts := attempts }
      nextSeq := max st.nextSeq (seq + 1) }

/-- The lines of a journal, one after the other: a line that does not parse ends the
replay. -/
def Replay.lines (path : String) : Replay → List (List Byte) → Except StoreError Replay
  | st, [] => .ok st
  | st, line :: rest =>
    match (Journal.Format.read line : Journal.Line JournalRecord) with
    | .blank => Replay.lines path st rest
    | .unreadable => .ok st
    | .record record =>
      match st.record path record with
      | .error error => .error error
      | .ok st => Replay.lines path st rest

/-! ### The store -/

/-- A store over a journal. -/
structure FileStore where
  /-- Where the journal is. -/
  path : JournalPath
  /-- Whether the open file is the one at the path; if not, it is one that was
  replaced there and has no name any more. -/
  attached : Bool
  /-- The messages still queued. -/
  live : SortedMap Seq QueuedCall
  /-- The next sequence number to issue. -/
  nextSeq : Seq
  /-- Records written since the last compaction, live or not. -/
  written : ℕ

/-- **A process with a journal open**: the files and the store. -/
structure StoreSession where
  /-- The files. -/
  disk : Disk
  /-- The store. -/
  store : FileStore

/-- A computation of a process that has a journal open. -/
abbrev Io := EStateM StoreError StoreSession

/-- A computation on the files alone. -/
def onDisk {α : Type} (x : DiskIo α) : Io α := fun s =>
  match x s.disk with
  | .ok a disk => .ok a { s with disk := disk }
  | .error error disk => .error error { s with disk := disk }

/-- A change of the store alone. -/
def modifyStore (f : FileStore → FileStore) : Io Unit :=
  modify fun s => { s with store := f s.store }

/-- Bytes added to the file the store has open. -/
def FileStore.put (store : FileStore) (bytes : List Byte) (d : Disk) : Disk :=
  if store.attached then d.putJournal bytes else d

namespace FileStore

/-- How much of the journal may be dead records before it is rewritten. -/
def compactRatio : ℕ := 4

/-- The smallest journal worth rewriting. -/
def compactFloor : ℕ := 64

/-- Replays a journal into the set of messages still queued. -/
def replay (path : JournalPath) : DiskIo Replay := do
  match (← get).journal with
  | none => pure Replay.start
  | some content =>
    Disk.step path.path
    match Replay.lines path.path Replay.start (Journal.lines JournalRecord content) with
    | .ok replayed => pure replayed
    | .error error => throw error

/-- The live entries written to the fresh journal, one record each. -/
def writeEntries (path : String) : List (Seq × QueuedCall) → DiskIo Unit
  | [] => pure ()
  | r :: rest => do
    Disk.writeRecord Disk.putCompacting path (.push r.1 (StoredCall.fromCall r.2))
    writeEntries path rest

/-- A fresh journal with the live entries only, up to the point where it takes the
journal's place. -/
def writeCompacted (store : FileStore) : DiskIo Unit := do
  Disk.step store.path.temporary
  modify fun d => { d with compacting := some [] }
  writeEntries store.path.temporary store.live.entries
  Disk.step store.path.temporary
  Disk.step store.path.path
  modify fun d => { d with journal := d.compacting, compacting := none }

/-- Writes a fresh journal containing only the live entries, swaps it in and opens
it. Until it is open, what the store has open is the file that was replaced. -/
def rewrite : Io Unit := do
  let store := (← get).store
  onDisk (writeCompacted store)
  modifyStore fun store => { store with attached := false }
  onDisk (Disk.step store.path.path)
  modifyStore fun store => { store with attached := true, written := store.live.size }

/-- Opens (or creates) the journal at a path, replaying whatever an outage left
behind. -/
def «open» (path : JournalPath) (disk : Disk) : EStateM.Result StoreError Disk StoreSession :=
  match (do
      let replayed ← replay path
      Disk.step path.path
      modify fun d => { d with journal := some (d.journal.getD []) }
      return replayed : DiskIo Replay) disk with
  | .error error disk => .error error disk
  | .ok replayed disk =>
    let store := {
      path := path, attached := true, live := replayed.live, nextSeq := replayed.nextSeq,
      written := 0 }
    match rewrite ⟨disk, store⟩ with
    | .error error s => .error error s.disk
    | .ok () s => .ok s s.disk

/-- Appends one record and flushes it to the device. -/
def append (record : JournalRecord) : Io Unit := do
  let store := (← get).store
  onDisk (Disk.writeRecord store.put store.path.path record)
  onDisk (Disk.step store.path.path)
  modifyStore fun store => { store with written := store.written + 1 }

/-- Rewrites the journal once the dead records have come to outweigh the live
ones. -/
def compactIfWorthwhile : Io Unit := do
  let store := (← get).store
  if compactFloor ≤ store.written ∧ store.live.size * compactRatio ≤ store.written then rewrite
  else pure ()

/-- Appends a message. -/
def push (entry : QueuedCall) : Io Seq := do
  let seq := (← get).store.nextSeq
  append (.push seq (StoredCall.fromCall entry))
  modifyStore fun store =>
    { store with nextSeq := store.nextSeq + 1, live := store.live.insert seq entry }
  return seq

/-- Removes a message that has been delivered or abandoned. -/
def ack (seq : Seq) : Io Unit := do
  if (← get).store.live.contains seq then
    modifyStore fun store => { store with live := store.live.remove seq }
    append (.ack seq)
    compactIfWorthwhile
  else pure ()

/-- Records a further transmission attempt. -/
def setAttempts (seq : Seq) (attempts : ℕ) : Io Unit := do
  if (← get).store.live.contains seq then
    modifyStore fun store =>
      { store with live := store.live.modify seq fun entry => { entry with attempts := attempts } }
    append (.attempts seq attempts)
    compactIfWorthwhile
  else pure ()

/-- Rewrites the journal so it holds only what is still queued. -/
def compact : Io Unit := rewrite

end FileStore

/-- What an operation left behind, and what it returned. -/
def StoreSession.after {α : Type} :
    EStateM.Result StoreError StoreSession α → StoreSession × Except StoreError α
  | .ok a s => (s, .ok a)
  | .error error s => (s, .error error)

instance : MessageStore StoreSession where
  push s entry := StoreSession.after (FileStore.push entry s)
  pending s := .ok s.store.live.entries
  ack s seq := StoreSession.after (FileStore.ack seq s)
  setAttempts s seq attempts := StoreSession.after (FileStore.setAttempts seq attempts s)

end OcppKit
