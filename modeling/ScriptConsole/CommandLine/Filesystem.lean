import ScriptConsole.CommandLine.World

/-!
# Paths of a file system

A file system in which the files of the working directory are known, and besides them what is found
on any system. A place is given by the names that lead to it from the root. A path is followed step
by step: a step needs a directory to start from, so nothing can follow the name of a file, not even a
step that stays where it is, and some names are links to other places. A path must not be too long or
lead over too many links.
-/

namespace ScriptConsole.CommandLine

/-- The place of a file or directory: the names that lead to it from the root. -/
abbrev Place := List String

/-- A file system with the given files in its working directory. -/
structure Filesystem where
  /-- The contents of each file, by the names that lead to it from the working directory; of two
  entries the first counts. -/
  files : List (Place × List UInt8) := []
  /-- Whether the log has been started. -/
  logging : Bool := false
deriving DecidableEq, Repr

namespace Filesystem

/-- The steps of a path. -/
def steps (path : String) : List String :=
  path.splitOn "/"

/-- Whether a step stays where it is. -/
def stays (step : String) : Bool :=
  step = "" || step = "."

/-- The file system with given files, by their paths from the working directory. -/
def ofFiles (files : List (String × List UInt8)) : Filesystem :=
  { files := files.map fun (path, bytes) => ((steps path).filter fun step => !stays step, bytes) }

/-- The place of the working directory, two levels below the root. Its own name is not known: it is
one that no step can have. -/
def workingPlace : Place := ["tmp", ""]

/-- The place of the input. -/
def inputPlace : Place := ["proc", "self", "fd", "0"]

/-- The place of a file that is always empty. -/
def nullPlace : Place := ["dev", "null"]

/-- The directories outside of the working directory. -/
def directories : List Place :=
  [[], ["boot"], ["dev"], ["dev", "pts"], ["dev", "shm"], ["etc"], ["home"], ["media"], ["mnt"],
    ["opt"], ["proc"], ["proc", "self"], ["proc", "self", "fd"], ["root"], ["run"], ["srv"],
    ["sys"], ["tmp"], ["usr"], ["usr", "bin"], ["usr", "lib"], ["usr", "local"], ["usr", "sbin"],
    ["usr", "share"], ["var"], ["var", "log"], ["var", "tmp"]]

/-- A link to another place. -/
structure Link where
  /-- Where the link is. -/
  place : Place
  /-- Where it leads in the end. -/
  target : Place
  /-- How many links are followed on the way, the link itself included. -/
  count : Nat
deriving DecidableEq, Repr

/-- The links outside of the working directory. What belongs to the run itself is reached over a link
from `/proc/self`, and so is the input from its number. -/
def links : List Link :=
  [⟨["bin"], ["usr", "bin"], 1⟩, ⟨["lib"], ["usr", "lib"], 1⟩, ⟨["sbin"], ["usr", "sbin"], 1⟩,
    ⟨["dev", "fd"], ["proc", "self", "fd"], 2⟩, ⟨["dev", "stdin"], inputPlace, 3⟩,
    ⟨["proc", "self"], ["proc", "self"], 1⟩, ⟨inputPlace, inputPlace, 1⟩,
    ⟨["proc", "self", "cwd"], workingPlace, 1⟩, ⟨["proc", "self", "root"], [], 1⟩]

/-- The link to the log while it is open. -/
def logLink : Link :=
  ⟨["proc", "self", "fd", "3"], workingPlace ++ [logName], 1⟩

/-- The link at a place. -/
def link? (system : Filesystem) (place : Place) : Option Link :=
  (if system.logging then logLink :: links else links).find? fun link => link.place = place

/-- How many links may be followed on a path. -/
def maxLinks : Nat := 40

/-- The bound of the number of bytes in a path. -/
def pathBound : Nat := 4096

/-- Puts a file in the working directory, under the names that lead to it. -/
def write (system : Filesystem) (names : Place) (bytes : List UInt8) : Filesystem :=
  { system with files := (names, bytes) :: system.files }

/-- What some names lead to from the working directory. -/
def localEntry (system : Filesystem) (names : Place) : Entry :=
  match system.files.lookup names with
  | some bytes => .file bytes
  | none =>
    if names = [] ∨ system.files.any fun (others, _) => names.isPrefixOf others then
      .unreadable
    else
      .missing

/-- What is found at a place. -/
def entryAt (system : Filesystem) (place : Place) : Entry :=
  match workingPlace.isPrefixOf? place with
  | some names => system.localEntry names
  | none =>
    if place = inputPlace then .input
    else if place = nullPlace then .file []
    else if place ∈ directories then .unreadable
    else .missing

/-- What some steps lead to from a place, if no more links than `left` are followed. From the root no
step leads upwards. -/
def follow (system : Filesystem) (left : Nat) (place : Place) : List String → Entry
  | [] => system.entryAt place
  | step :: steps =>
    if system.entryAt place ≠ .unreadable then
      .missing
    else if stays step then
      system.follow left place steps
    else if step = ".." then
      system.follow left place.dropLast steps
    else
      match system.link? (place ++ [step]) with
      | none => system.follow left (place ++ [step]) steps
      | some link =>
        if link.count ≤ left then system.follow (left - link.count) link.target steps else .missing

/-- What a path leads to. -/
def entry (system : Filesystem) (path : String) : Entry :=
  if path = "" ∨ pathBound ≤ path.utf8ByteSize then
    .missing
  else
    match steps path with
    | "" :: steps => system.follow maxLinks [] steps
    | steps => system.follow maxLinks workingPlace steps

/-- The file system once the log has been started. A directory cannot become the log. -/
def startLog? (system : Filesystem) : Option Filesystem :=
  if system.localEntry [logName] = .unreadable then
    none
  else
    some { system.write [logName] logText.toUTF8.toList with logging := true }

/-- The world of a run in the working directory. -/
def world (system : Filesystem) (input : List UInt8) : World where
  entry := system.entry
  logged := system.startLog?.map entry
  input := input

end Filesystem

end ScriptConsole.CommandLine
