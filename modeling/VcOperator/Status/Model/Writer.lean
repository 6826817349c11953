import VcOperator.Common.Run
import VcOperator.Common.Volume
import VcOperator.Common.Watch
import VcOperator.Config.Model.Rewire
import VcOperator.Status.Model.Document
/-!
# The writers of the status files

`spawn_status_writer` of each service of a daemon that has a status file,
with the volume they write to and with whoever reads the files. A writer
takes the snapshot its watch channel holds, writes it beside the status file
and renames it (`write_status_file`). It may be stopped between any two of
its operations, each operation may fail, and bytes are written and read in
pieces of any length.

No two paths are one place. `shown` and `wentThrough` are history: which of
its snapshots a writer has last put in place, and whether its last
`write_status_file` succeeded.
-/

namespace VcOperator

namespace Status

open Config (Path withExtension)

/-- A path that names a file; nothing can be written to another one. -/
def FilePath : Type := { path : Path // path.fileName.isSome }

instance : DecidableEq FilePath :=
  inferInstanceAs (DecidableEq { path : Path // path.fileName.isSome })

/-- `path.with_extension("tmp")`. -/
def FilePath.tmp (path : FilePath) : FilePath :=
  ⟨withExtension path.1 "tmp", by rw [withExtension, Option.isSome_map]; exact path.2⟩

/-- The services with a status file, and the first value of the channel of each. -/
structure Services (ι : Type) where
  floats : Json.Floats
  path : ι → FilePath
  first : ι → EncodableSnapshot

/-- The bytes `serde_json::to_vec_pretty` gives for a snapshot. -/
def statusBytes (floats : Json.Floats) (snapshot : EncodableSnapshot) : List UInt8 :=
  (statusFile floats snapshot).toUTF8.data.toList

/-- What a writer does next. The snapshot it has taken, `current`, is told by its version. -/
inductive Stage where
  /-- `rx.borrow().clone()`. -/
  | borrow
  /-- `create_dir_all`. -/
  | createDir (current : ℕ)
  /-- `fs::write`: the temporary file is opened. -/
  | openTmp (current : ℕ)
  /-- `fs::write`: so many bytes of it are written. -/
  | writeTmp (current file written : ℕ)
  | rename (current : ℕ)
  /-- `rx.changed().await`. -/
  | changed
  deriving DecidableEq

/-- A writer, and the channel it receives from. -/
structure Writer where
  channel : Watch EncodableSnapshot
  /-- The last version `changed` has told of. -/
  seen : ℕ
  stage : Stage
  shown : Option ℕ
  wentThrough : Bool

/-- Someone who reads a status file: the file that was opened, and what was read of it. -/
structure Reader (ι : Type) where
  service : ι
  file : ℕ
  got : List UInt8
  finished : Bool

/-- The volume, the writers and the readers. -/
structure Files (ι : Type) where
  volume : Volume FilePath UInt8
  writers : ι → Writer
  readers : List (Reader ι)

/-- What becomes of an operation of a writer. -/
inductive Outcome where
  | ok
  | failed
  /-- So many bytes are written. -/
  | wrote (n : ℕ)
  deriving DecidableEq

/-- The labels of the step function. -/
inductive Event (ι : Type) where
  /-- `publish_status` sends a snapshot. -/
  | publish (i : ι) (snapshot : EncodableSnapshot)
  | writer (i : ι) (outcome : Outcome)
  /-- Someone opens the status file of a service. -/
  | openStatus (i : ι)
  /-- The `k`-th reader reads at most so many bytes. -/
  | read (k n : ℕ)

/-- `write_status_file` returns; a warning is logged where it failed. -/
def Writer.returned (w : Writer) (wentThrough : Bool) : Writer :=
  { w with stage := .changed, wentThrough := wentThrough }

variable {ι : Type}

/-- The text of a version. -/
def Writer.bytes (floats : Json.Floats) (w : Writer) (version : ℕ) : List UInt8 :=
  ((w.channel.get version).map (statusBytes floats)).getD []

/-- One operation of a writer. -/
def Writer.proceed (floats : Json.Floats) (path : FilePath) (volume : Volume FilePath UInt8)
    (w : Writer) (outcome : Outcome) : Option (Volume FilePath UInt8 × Writer) :=
  match w.stage, outcome with
  | .borrow, .ok => some (volume, { w with stage := .createDir w.channel.version })
  | .createDir current, .ok => some (volume, { w with stage := .openTmp current })
  | .openTmp current, .ok =>
    let opened := volume.create path.tmp
    some (opened.1, { w with stage := .writeTmp current opened.2 0 })
  | .writeTmp current file written, .wrote n =>
    let text := w.bytes floats current
    if 0 < n ∧ written + n ≤ text.length then
      some (volume.write 0 file written ((text.drop written).take n),
        { w with
          stage :=
            if written + n = text.length then .rename current
            else .writeTmp current file (written + n) })
    else none
  | .rename current, .ok =>
    (volume.rename path.tmp path).map fun renamed =>
      (renamed, { w.returned true with shown := some current })
  | .createDir _, .failed | .openTmp _, .failed | .writeTmp .., .failed | .rename _, .failed =>
    some (volume, w.returned false)
  | .changed, .ok =>
    if w.seen < w.channel.version then
      some (volume, { w with seen := w.channel.version, stage := .borrow })
    else none
  | _, _ => none

/-- `read`: what comes next in the file, or its end. -/
def Reader.advance (contents : List UInt8) (n : ℕ) (r : Reader ι) : Option (Reader ι) :=
  if r.finished || n == 0 then none
  else
    match contents.drop r.got.length with
    | [] => some { r with finished := true }
    | rest => some { r with got := r.got ++ rest.take n }

/-- Where all of them begin, over what was there before. -/
def Files.init (services : Services ι) (volume : Volume FilePath UInt8) : Files ι where
  volume := volume
  writers := fun i =>
    { channel := ⟨services.first i, []⟩, seen := 0, stage := .borrow, shown := none,
      wentThrough := false }
  readers := []

/-- **One step**, of a service, a writer or a reader. -/
def Files.step [DecidableEq ι] (services : Services ι) (s : Files ι) : Event ι → Option (Files ι)
  | .publish i snapshot =>
    let w := s.writers i
    some { s with
      writers := Function.update s.writers i { w with channel := w.channel.send snapshot } }
  | .writer i outcome =>
    ((s.writers i).proceed services.floats (services.path i) s.volume outcome).map fun r =>
      { s with volume := r.1, writers := Function.update s.writers i r.2 }
  | .openStatus i =>
    (s.volume.names (services.path i)).map fun file =>
      { s with readers := s.readers ++ [⟨i, file, [], false⟩] }
  | .read k n =>
    (s.readers[k]?).bind fun r =>
      (r.advance (s.volume.contents r.file) n).map fun r' =>
        { s with readers := s.readers.set k r' }

end Status

end VcOperator
