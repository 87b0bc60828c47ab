import PkgManager.Scanner.Catalog
import PkgManager.Smb.Browse

/-!
# Leftovers of titles

Patches and additional content can stay behind when a title is removed.  The scan offers
them with their paths; the deletion of a title collects its paths again.
-/

namespace PkgManager
namespace Leftovers

open CString
open PkgManager.Parser
open PkgManager.Scanner (strcasecmp lowerText)

/-- The directories that the environment sets. -/
structure Env where
  appmetaDir : Option Text
  userAppmetaDir : Option Text
  userPatchDir : Option Text
  addcontDir : Option Text
  userAppDir : Option Text

def Env.appmetaBase (env : Env) : Text :=
  env.appmetaDir.getD (ascii "/system_data/priv/appmeta")

def Env.userAppmetaBase (env : Env) : Text :=
  env.userAppmetaDir.getD (ascii "/user/appmeta")

def Env.userPatchBase (env : Env) : Text :=
  env.userPatchDir.getD (ascii "/user/patch")

def Env.addcontBase (env : Env) : Text :=
  env.addcontDir.getD (ascii "/user/addcont")

def Env.userAppBase (env : Env) : Text :=
  env.userAppDir.getD (ascii "/user/app")

/-- What the file system answers while nothing changes. -/
structure FileState where
  /-- The names in a directory, when it can be opened. -/
  names : Text -> Option (List Text)
  /-- {lit}`stat` finds something. -/
  stat : Text -> Bool
  /-- {lit}`calc_dir_size` -/
  dirSize : Text -> Nat
  /-- {lit}`read_param_sfo_title`, {lit}`read_param_json_title` and
  {lit}`read_param_sfo_version_simple`, when they succeed. -/
  sfoTitle : Text -> Option Text
  jsonTitle : Text -> Option Text
  sfoVersion : Text -> Option Text

def pathExists (fs : FileState) (path : Text) : Bool :=
  path != [] && fs.stat path

/-!
# Titles
-/

def isAlnum (b : UInt8) : Bool :=
  isDigit b || decide (65 ≤ b.toNat ∧ b.toNat ≤ 90) || decide (97 ≤ b.toNat ∧ b.toNat ≤ 122)

def isValidTitleId (id : Text) : Bool :=
  decide (9 ≤ id.length ∧ id.length ≤ 16) &&
    (strcasecmp (id.take 4) (ascii "CUSA") == 0 || strcasecmp (id.take 4) (ascii "PPSA") == 0) &&
    id.all isAlnum

def isTitleInList (tids : List Text) (tid : Text) : Bool :=
  tids.any (fun other => strcasecmp other tid == 0)

def noteCandidate (tids : List Text) (name : Text) : List Text :=
  if name.head? = some 46 then tids
  else if isValidTitleId name && !isTitleInList tids name && decide (tids.length < 256) then
    tids ++ [copied 32 name]
  else tids

/-- The names in the directories that are scanned, in order. -/
def scannedNames (env : Env) (fs : FileState) : List Text :=
  [env.userPatchBase, ascii "/user/patch0", env.addcontBase].flatMap
    (fun dir => (fs.names dir).getD [])

def candidateTids (env : Env) (fs : FileState) : List Text :=
  (scannedNames env fs).foldl noteCandidate []

/-!
# What belongs to a title
-/

def titlePath (base tid : Text) : Text :=
  copied 512 (base ++ ascii "/" ++ tid)

def fileOf (base tid : Text) (file : String) : Text :=
  copied 512 (base ++ ascii "/" ++ tid ++ ascii file)

def isBasePackageInstalledFs (env : Env) (fs : FileState) (tid : Text) : Bool :=
  pathExists fs (fileOf env.userAppBase tid "/sce_sys/param.sfo") ||
    pathExists fs (fileOf env.userAppBase tid "/sce_sys/param.json") ||
    pathExists fs (fileOf env.userAppBase tid "/eboot.bin") ||
    pathExists fs (fileOf (ascii "/system_ex/app") tid "/sce_sys/param.json") ||
    pathExists fs (fileOf (ascii "/system_ex/app") tid "/sce_sys/param.sfo") ||
    pathExists fs (fileOf (ascii "/mnt/ext0/user/app") tid "/sce_sys/param.sfo") ||
    pathExists fs (fileOf (ascii "/mnt/ext0/user/app") tid "/sce_sys/param.json") ||
    pathExists fs (fileOf (ascii "/mnt/ext1/user/app") tid "/sce_sys/param.sfo") ||
    pathExists fs (fileOf (ascii "/mnt/ext1/user/app") tid "/sce_sys/param.json")

/-- A directory of the title that has none of its base files. -/
def isBrokenApp (fs : FileState) (pbuf : Text) : Bool :=
  pathExists fs pbuf && !pathExists fs (copied 1024 (pbuf ++ ascii "/sce_sys/param.sfo")) &&
    !pathExists fs (copied 1024 (pbuf ++ ascii "/sce_sys/param.json")) &&
    !pathExists fs (copied 1024 (pbuf ++ ascii "/eboot.bin"))

/-- {lit}`paths` of the scan and {lit}`paths_to_delete`, which are collected alike. -/
def existingPaths (env : Env) (fs : FileState) (tid : Text) : List Text :=
  ([titlePath env.userPatchBase tid, titlePath (ascii "/user/patch0") tid,
    titlePath env.addcontBase tid, titlePath env.appmetaBase tid,
    titlePath env.userAppmetaBase tid].filter (pathExists fs)) ++
    (if isBrokenApp fs (titlePath env.userAppBase tid) then [titlePath env.userAppBase tid]
    else [])

/-!
# The scan
-/

def escapedByte (c : UInt8) : Text :=
  if c = quote then ascii "\\\""
  else if c = backslash then ascii "\\\\"
  else if c = 10 then ascii "\\n"
  else if c = 13 then ascii "\\r"
  else if c = 9 then ascii "\\t"
  else if 32 ≤ c.toNat ∧ c.toNat ≤ 126 then [c]
  else [32]

/-- The loop from a place in the buffer on. -/
def escapeRest (maxDst : Nat) : Nat -> Text -> Text
  | _, [] => []
  | d, c :: rest =>
      if c = 0 ∨ maxDst ≤ d + 2 then []
      else escapedByte c ++ escapeRest maxDst (d + (escapedByte c).length) rest

def escapeJsonStr (maxDst : Nat) (src : Text) : Text :=
  escapeRest maxDst 0 src

/-- An item of the list, as it is printed. -/
structure LeftoverEntry where
  titleId : Text
  titleName : Text
  version : Text
  type : Text
  totalSize : Nat
  paths : List Text
deriving DecidableEq

def hasPatchDir (paths : List Text) : Bool :=
  paths.any (fun path => (strstr (ascii "patch") path).isSome)

def hasAddcontDir (paths : List Text) : Bool :=
  paths.any (fun path => (strstr (ascii "addcont") path).isSome)

def titleName (env : Env) (fs : FileState) (tid : Text) : Text :=
  let found :=
    ((fs.sfoTitle (fileOf env.appmetaBase tid "/param.sfo")).or
      ((fs.jsonTitle (fileOf env.appmetaBase tid "/param.json")).or
        ((fs.sfoTitle (fileOf env.userPatchBase tid "/sce_sys/param.sfo")).or
          (fs.sfoTitle (fileOf env.userAppmetaBase tid "/param.sfo"))))).getD []
  if found = [] then copied 256 tid else found

def titleVersion (env : Env) (fs : FileState) (tid : Text) : Text :=
  ((fs.sfoVersion (fileOf env.appmetaBase tid "/param.sfo")).or
    (fs.sfoVersion (fileOf env.userPatchBase tid "/sce_sys/param.sfo"))).getD []

def leftoverType (hasPatch hasAddcont : Bool) : Text :=
  if hasPatch && hasAddcont then ascii "Orphaned Update & DLC"
  else if hasPatch then ascii "Orphaned Update"
  else ascii "Orphaned DLC"

/-- The item of a candidate, unless it is passed over.  {lit}`installed` answers for
{lit}`app_info_check_installed`. -/
def leftoverEntry (env : Env) (fs : FileState) (installed : Text -> Bool) (tid : Text) :
    Option LeftoverEntry :=
  if isBasePackageInstalledFs env fs tid then none
  else if installed tid then none
  else
    let paths := existingPaths env fs tid
    if !hasPatchDir paths && !hasAddcontDir paths then none
    else
      some
        { titleId := tid
          titleName := escapeJsonStr 512 (titleName env fs tid)
          version := titleVersion env fs tid
          type := leftoverType (hasPatchDir paths) (hasAddcontDir paths)
          totalSize := (paths.map fs.dirSize).sum % 2 ^ 64
          paths := paths.map (escapeJsonStr 512) }

/-- The list of {lit}`leftovers_scan_json`. -/
def leftoversScan (env : Env) (fs : FileState) (installed : Text -> Bool) : List LeftoverEntry :=
  (candidateTids env fs).filterMap (leftoverEntry env fs installed)

/-!
# The deletion
-/

inductive DeleteAnswer where
  /-- Invalid Title ID -/
  | invalid
  /-- Base package is currently installed. Cannot delete! -/
  | installed
  /-- Each path was handed to {lit}`rmdir_recursive`. -/
  | deleted (paths : List Text)
deriving DecidableEq

/-- {lit}`leftovers_delete_json` -/
def leftoversDelete (env : Env) (fs : FileState) (installed : Text -> Bool) (titleId : Text) :
    DeleteAnswer :=
  if isValidTitleId titleId = false then .invalid
  else if isBasePackageInstalledFs env fs titleId || installed titleId then .installed
  else .deleted (existingPaths env fs titleId)

def DeleteAnswer.removed : DeleteAnswer -> List Text
  | .invalid => []
  | .installed => []
  | .deleted paths => paths

/-- A path is listed when a text in the item stands for it. -/
def LeftoverEntry.Lists (entry : LeftoverEntry) (path : Text) : Prop :=
  exists text, text ∈ entry.paths ∧ Smb.jsonParseText text = some path

end Leftovers
end PkgManager
