import Mathlib.Logic.Function.Basic
import RemoteDeck.Error
import RemoteDeck.Sftp.Registry

/-! # The commit of a transfer

    `commit_remote_transfer` and `commit_local_transfer` of `sftp.rs`: a
    complete temporary takes the place of the destination, whose content
    waits under a backup name until it does.

    What each step of a file system answers is an input.  A remote rename
    can take effect and still report a failure, when the connection ends in
    between.  A pattern of answers that no file system gives (a rename of
    nothing succeeds) has no result.

    This file defines:
    - the app-owned names of `sftp.rs`
    - `Files` with `rename` and `remove`
    - `exchange`, the renames of a commit, and the two commits
-/

namespace Sftp

/-! ### Names -/

def trim_end_slashes (path : Text) : Text := path.rdropWhile (· = '/')

def remote_parent (path : Text) : Option Text :=
  let trimmed := trim_end_slashes path
  let front := trimmed.rdropWhile (· ≠ '/')
  if front = [] then none
  else
    let index := front.length - 1
    if index = 0 then some "/".toList
    else if index = 1 && trimmed.starts_with "~".toList then some "~/".toList
    else some front.dropLast

def remote_file_name (path : Text) : Option Text :=
  let name := (trim_end_slashes path).rtakeWhile (· ≠ '/')
  if name = [] then none else some name

def remote_join (parent name : Text) : Text :=
  if parent = "/".toList then '/' :: name
  else if parent.getLast? = some '/' then parent ++ name
  else parent ++ '/' :: name

/-- `.{name}.remotedeck-{job_id}` with an ending. -/
def owned_name (name job_id ending : Text) : Text :=
  ".".toList ++ name ++ ".remotedeck-".toList ++ job_id ++ ending

def owned_remote (destination job_id ending : Text) : AppResult Text := do
  let parent ← (remote_parent destination).ok_or
    (.Validation "remote destination has no parent".toList)
  let name ← (remote_file_name destination).ok_or
    (.Validation "remote destination has no name".toList)
  .ok (remote_join parent (owned_name name job_id ending))

def owned_remote_temp (destination job_id : Text) : AppResult Text :=
  owned_remote destination job_id ".part".toList

def owned_remote_backup (destination job_id : Text) : AppResult Text :=
  owned_remote destination job_id ".backup".toList

/-- `OsStr`, of which only some are Unicode. -/
inductive OsName where
  | unicode (name : Text)
  | other (bytes : List Nat)
  deriving DecidableEq, Repr

/-- A path of the local file system, by what `parent` and `file_name` say of it. -/
structure LocalPath where
  parent : Option Text
  file_name : Option OsName
  deriving DecidableEq, Repr

def OsName.to_str : OsName → Option Text
  | .unicode name => some name
  | .other _ => none

def LocalPath.join (parent name : Text) : LocalPath := ⟨some parent, some (.unicode name)⟩

def owned_local (destination : LocalPath) (job_id ending : Text) : AppResult LocalPath := do
  let parent ← destination.parent.ok_or (.Validation "local destination has no parent".toList)
  let name ← (destination.file_name.bind OsName.to_str).ok_or
    (.Validation "local destination name is not valid Unicode".toList)
  .ok (LocalPath.join parent (owned_name name job_id ending))

def owned_local_temp (destination : LocalPath) (job_id : Text) : AppResult LocalPath :=
  owned_local destination job_id ".part".toList

def owned_local_backup (destination : LocalPath) (job_id : Text) : AppResult LocalPath :=
  owned_local destination job_id ".backup".toList

/-- A name of the form that `owned_name` gives, for an identifier that parses. -/
def is_owned_name (parse_uuid : Text → Bool) (name ending : Text) : Bool :=
  match name.rsplit_once ".remotedeck-".toList with
  | none => false
  | some (_, rest) =>
      match rest.strip_trailing ending with
      | none => false
      | some uuid => parse_uuid uuid

def is_owned_remote_backup (parse_uuid : Text → Bool) (path : Text) : Bool :=
  match remote_file_name path with
  | none => false
  | some name => is_owned_name parse_uuid name ".backup".toList

def is_owned_local_backup (parse_uuid : Text → Bool) (path : LocalPath) : Bool :=
  match path.file_name.bind OsName.to_str with
  | none => false
  | some name => is_owned_name parse_uuid name ".backup".toList

/-! ### Files -/

/-- What is at a path: a file, or a directory with all that is in it. -/
abbrev Files (Path Content : Type) := Path → Option Content

inductive RenameAnswer (Err : Type) where
  | renamed
  | failed (error : Err)
  /-- It took effect, and reports a failure. -/
  | lost (error : Err)
  deriving DecidableEq, Repr

inductive RemoveAnswer (Content : Type) where
  | removed
  /-- It fails, and some of what it should remove is left. -/
  | failed (error : AppError) (left : Option Content)
  deriving DecidableEq, Repr

section
variable {Path Content Err : Type} [DecidableEq Path]

def Files.move (files : Files Path Content) (source destination : Path) (content : Content) :
    Files Path Content :=
  Function.update (Function.update files source none) destination (some content)

/-- A rename that takes effect replaces what is at its destination. -/
def Files.rename (files : Files Path Content) (source destination : Path) :
    RenameAnswer Err → Option (Except Err Unit × Files Path Content)
  | .renamed => (files source).map fun content => (.ok (), files.move source destination content)
  | .failed error => some (.error error, files)
  | .lost error => (files source).map fun content => (.error error, files.move source destination content)

def Files.remove (files : Files Path Content) (path : Path) :
    RemoveAnswer Content → AppResult Unit × Files Path Content
  | .removed => (.ok (), Function.update files path none)
  | .failed error left => (.error error, Function.update files path left)

end

/-- An error, and whether it reports that a rollback failed. -/
structure CommitError where
  error : AppError
  rollback_failed : Bool
  deriving DecidableEq, Repr

def CommitError.of (error : AppError) : CommitError := ⟨error, false⟩

abbrev Committed (Path Content : Type) := Except CommitError Unit × Files Path Content

/-- The result of the last step, with its error as the error of the commit. -/
def committed {Path Content Err : Type} (app_error : Err → AppError)
    (step : Except Err Unit × Files Path Content) : Committed Path Content :=
  (step.1.mapError fun error => .of (app_error error), step.2)

def backup_exists_error (backup : Text) : AppError :=
  .State ("a preserved transfer backup already exists at ".toList ++ backup ++
    "; recover it before retrying".toList)

def rollback_error (replace_error rollback_error backup : Text) : CommitError where
  error := .State ("replacement failed (".toList ++ replace_error ++ "); rollback failed (".toList ++
    rollback_error ++ "); the original remains at ".toList ++ backup)
  rollback_failed := true

def backup_remains_error (backup error : Text) : AppError :=
  .State ("replacement succeeded but the old destination backup remains at ".toList ++ backup ++
    ": ".toList ++ error)

section
variable {Path Content Err : Type} [DecidableEq Path]

/-- The answers to the renames of a commit. -/
structure ExchangeAnswers (Err : Type) where
  /-- From the destination to the backup name. -/
  aside : RenameAnswer Err
  /-- From the temporary to the destination. -/
  replace : RenameAnswer Err
  /-- From the backup name to the destination. -/
  rollback : RenameAnswer Err
  deriving DecidableEq, Repr

/-- How the errors of the renames become errors of the commit. -/
structure ErrorTexts (Err : Type) where
  app_error : Err → AppError
  text : Err → Text
  backup : Text

/-- The part of the two commits after their checks. -/
def exchange (answers : ExchangeAnswers Err) (texts : ErrorTexts Err)
    (delete : Files Path Content → AppResult Unit × Files Path Content)
    (temporary destination backup : Path) (files : Files Path Content) :
    Option (Committed Path Content) := do
  let (moved, files) ← files.rename destination backup answers.aside
  match moved with
  | .error error => some (.error (.of (texts.app_error error)), files)
  | .ok () =>
      let (replaced, files) ← files.rename temporary destination answers.replace
      match replaced with
      | .error replace_error =>
          let (rolled_back, files) ← files.rename backup destination answers.rollback
          match rolled_back with
          | .error error =>
              some (.error (rollback_error (texts.text replace_error) (texts.text error) texts.backup),
                files)
          | .ok () => some (.error (.of (texts.app_error replace_error)), files)
      | .ok () =>
          let (deleted, files) := delete files
          match deleted with
          | .error error =>
              some (.error (.of (backup_remains_error texts.backup error.to_string)), files)
          | .ok () => some (.ok (), files)

end

/-! ### The remote side -/

inductive SftpEntryKind where
  | File
  | Directory
  | Symlink
  | Other
  deriving DecidableEq, Repr

structure SftpEntry where
  kind : SftpEntryKind
  deriving DecidableEq, Repr

/-- The command by which `delete` removes an entry. -/
inductive DeleteCommand where
  | delete_tree
  | rmdir
  | rm
  deriving DecidableEq, Repr

/-- The answers of the service to the steps of a commit. -/
structure RemoteAnswers (Content : Type) where
  backup_metadata : AppResult (Option SftpEntry)
  renames : ExchangeAnswers AppError
  delete_metadata : AppResult (Option SftpEntry)
  delete : DeleteCommand → RemoveAnswer Content

section
variable {Content : Type} (answers : RemoteAnswers Content)

/-- `SftpService::delete`. -/
def delete (path : Text) (recursive : Bool) (files : Files Text Content) :
    AppResult Unit × Files Text Content :=
  match answers.delete_metadata with
  | .error error => (.error error, files)
  | .ok none => (.ok (), files)
  | .ok (some metadata) =>
      if metadata.kind = .Directory then
        if recursive then files.remove path (answers.delete .delete_tree)
        else files.remove path (answers.delete .rmdir)
      else files.remove path (answers.delete .rm)

def commit_remote_transfer (parse_uuid : Text → Bool) (job_id temporary destination : Text)
    (existing : Option SftpEntry) (policy : ConflictPolicy) (files : Files Text Content) :
    Option (Committed Text Content) :=
  match existing with
  | none => (files.rename temporary destination answers.renames.replace).map (committed id)
  | some existing =>
      if policy ≠ .Overwrite then
        some (.error (.of (.Process "transfer destination appeared before final rename".toList)), files)
      else
        match owned_remote_backup destination job_id with
        | .error error => some (.error (.of error), files)
        | .ok backup =>
            if !is_owned_remote_backup parse_uuid backup then
              some (.error (.of (.State "generated remote backup path is not app-owned".toList)), files)
            else
              match answers.backup_metadata with
              | .error error => some (.error (.of error), files)
              | .ok (some _) => some (.error (.of (backup_exists_error backup)), files)
              | .ok none =>
                  exchange answers.renames ⟨id, AppError.to_string, backup⟩
                    (delete answers backup (existing.kind = .Directory))
                    temporary destination backup files

end

/-! ### The local side -/

/-- A local rename has no third outcome. -/
inductive LocalAnswer where
  | renamed
  | failed (error : Text)
  deriving DecidableEq, Repr

def LocalAnswer.rename : LocalAnswer → RenameAnswer Text
  | .renamed => .renamed
  | .failed error => .failed error

/-- What `symlink_metadata` says of a path. -/
inductive LocalKind where
  | Directory
  | Other
  deriving DecidableEq, Repr

/-- The answers of the file system to the steps of a commit. -/
structure LocalAnswers (Content : Type) where
  destination_exists : AppResult Bool
  backup_exists : AppResult Bool
  aside : LocalAnswer
  replace : LocalAnswer
  rollback : LocalAnswer
  backup_metadata : AppResult (Option LocalKind)
  remove_dir_all : RemoveAnswer Content
  remove_file : RemoveAnswer Content

def LocalAnswers.renames {Content : Type} (answers : LocalAnswers Content) : ExchangeAnswers Text :=
  ⟨answers.aside.rename, answers.replace.rename, answers.rollback.rename⟩

section
variable {Content : Type} (answers : LocalAnswers Content)

def remove_local_path (path : LocalPath) (files : Files LocalPath Content) :
    AppResult Unit × Files LocalPath Content :=
  match answers.backup_metadata with
  | .error error => (.error error, files)
  | .ok none => (.ok (), files)
  | .ok (some .Directory) => files.remove path answers.remove_dir_all
  | .ok (some .Other) => files.remove path answers.remove_file

def remove_local_backup_if_owned (parse_uuid : Text → Bool) (path : LocalPath)
    (files : Files LocalPath Content) : AppResult Unit × Files LocalPath Content :=
  if !is_owned_local_backup parse_uuid path then
    (.error (.State "refusing to remove a transfer backup that is not app-owned".toList), files)
  else remove_local_path answers path files

/-- How a path is displayed depends on the platform. -/
def commit_local_transfer (parse_uuid : Text → Bool) (display : LocalPath → Text) (job_id : Text)
    (temporary destination : LocalPath) (policy : ConflictPolicy) (files : Files LocalPath Content) :
    Option (Committed LocalPath Content) :=
  match answers.destination_exists with
  | .error error => some (.error (.of error), files)
  | .ok false => (files.rename temporary destination answers.replace.rename).map (committed .Io)
  | .ok true =>
      if policy ≠ .Overwrite then
        some (.error (.of (.Process "download destination appeared before final rename".toList)), files)
      else
        match owned_local_backup destination job_id with
        | .error error => some (.error (.of error), files)
        | .ok backup =>
            match answers.backup_exists with
            | .error error => some (.error (.of error), files)
            | .ok true => some (.error (.of (backup_exists_error (display backup))), files)
            | .ok false =>
                exchange answers.renames ⟨.Io, id, display backup⟩
                  (remove_local_backup_if_owned answers parse_uuid backup)
                  temporary destination backup files

end

end Sftp
