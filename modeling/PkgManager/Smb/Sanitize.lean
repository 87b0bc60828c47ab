import Mathlib.Data.List.DropRight
import PkgManager.Smb.Bodies

/-!
# Clean configurations

The server of a share may be given with a scheme, a share, a path and a port.  What is
found there fills the other fields when they are not set.
-/

namespace PkgManager
namespace Smb

open CString
open PkgManager.Parser
open PkgManager.Scanner (lowerText)

/-- A blank, a tab or the end of a line. -/
def isBlank (b : UInt8) : Bool :=
  b == 32 || b == 9 || b == 13 || b == 10

def isSlash (b : UInt8) : Bool :=
  b == 47 || b == backslash

/-- What is trimmed from both ends of a field. -/
def isEdge (b : UInt8) : Bool :=
  isBlank b || isSlash b

def notSlash (b : UInt8) : Bool :=
  !isSlash b

/-!
# The server
-/

def withoutScheme (text : Text) : Text :=
  if lowerText (text.take 6) = ascii "smb://" then text.drop 6 else text

def cleanServer (server : Text) : Text :=
  (copied 128 ((withoutScheme (server.dropWhile isBlank)).dropWhile isSlash)).rdropWhile isEdge

/-- What stands behind the first slashes of the server. -/
def behindServer (clean : Text) : Text :=
  (clean.dropWhile notSlash).dropWhile isSlash

def extractedShare (clean : Text) : Text :=
  copied 128 ((behindServer clean).takeWhile notSlash)

def extractedSubpath (clean : Text) : Text :=
  copied 256 (((behindServer clean).dropWhile notSlash).dropWhile isSlash)

def notColon (b : UInt8) : Bool :=
  b != 58

/-- The host and the digits of its port.  An address with several colons has a port only
behind its bracket. -/
def embeddedPort (host : Text) : Option (Text × Text) :=
  let digits := host.rtakeWhile notColon
  let front := host.take (host.length - digits.length - 1)
  let hasPort :=
    decide (host.count 58 = 1) ||
      (decide (1 < host.count 58) && host.contains 93 && !digits.contains 93)
  if hasPort ∧ front ≠ [] ∧ digits ≠ [] ∧ digits.all isDigit then some (front, digits) else none

def cleanPort (port : Int) (host : Text) : Int :=
  let given :=
    match embeddedPort host with
    | none => port
    | some (_, digits) =>
        if 0 < atoi digits ∧ (port ≤ 0 ∨ port = smbDefaultPort) then atoi digits else port
  if given ≤ 0 then smbDefaultPort else given

def cleanHost (host : Text) : Text :=
  match embeddedPort host with
  | none => host
  | some (front, _) => front

/-!
# The path
-/

/-- The loop over a path: slashes of both kinds become one slash. -/
def collapsed : Nat -> Bool -> Text -> Text
  | _, _, [] => []
  | room, behindSlash, b :: rest =>
      let c := if b = backslash then 47 else b
      match room with
      | 0 => []
      | room + 1 =>
          if c = 47 ∧ behindSlash then collapsed (room + 1) behindSlash rest
          else c :: collapsed room (c == 47) rest

def cleanPath (path : Text) : Text :=
  (collapsed 255 false (path.dropWhile isEdge)).rdropWhile isEdge

def joinedPath (sub path : Text) : Text :=
  if sub = [] then path
  else if path = [] then sub
  else copied 256 (sub ++ ascii "/" ++ path)

/-!
# The configuration
-/

/-- {lit}`cfg->username` and {lit}`cfg->workgroup` -/
def trimmedField (text : Text) : Text :=
  (text.dropWhile (fun b => b == 32 || b == 9)).rdropWhile isBlank

def cleanWorkgroup (workgroup : Text) : Text :=
  if trimmedField workgroup = [] then ascii "WORKGROUP" else trimmedField workgroup

/-- {lit}`smb_client_sanitize_config` -/
def smbClientSanitizeConfig (cfg : SmbShare) : SmbShare :=
  let clean := cleanServer cfg.server
  let host := clean.takeWhile notSlash
  let share := if cfg.share = [] then extractedShare clean else cfg.share
  { cfg with
    server := copied 128 (cleanHost host)
    port := cleanPort cfg.port host
    share := copied 128 ((copied 128 (share.dropWhile isEdge)).rdropWhile isEdge)
    path := copied 256 (joinedPath (cleanPath (extractedSubpath clean)) (cleanPath cfg.path))
    username := trimmedField cfg.username
    workgroup := cleanWorkgroup cfg.workgroup }

/-!
# What a clean configuration is like
-/

theorem copied_length (size : Nat) (text : Text) : (copied size text).length ≤ size - 1 :=
  (cString_starts _).length_le.trans (List.length_take_le _ _)

theorem zeroFree_copied (size : Nat) (text : Text) : ZeroFree (copied size text) :=
  zeroFree_cString _

theorem mem_copied {size : Nat} {text : Text} {b : UInt8} (h : b ∈ copied size text) : b ∈ text :=
  List.mem_of_mem_take ((cString_starts _).mem h)

/-- A text that fits is copied whole. -/
theorem copied_whole {size : Nat} {text : Text} (hzero : ZeroFree text)
    (h : text.length ≤ size - 1) : copied size text = text := by
  unfold copied
  rw [List.take_of_length_le h, cString_of_zeroFree hzero]

theorem cleanHost_starts (host : Text) : cleanHost host <+: host := by
  unfold cleanHost embeddedPort
  dsimp only
  split
  · exact List.prefix_refl _
  · rename_i front digits h
    split at h
    · cases h
      exact List.take_prefix _ _
    · cases h

/-- A clean server is only a host. -/
theorem sanitized_server_slash (cfg : SmbShare) :
    (47 : UInt8) ∉ (smbClientSanitizeConfig cfg).server := by
  intro h
  have hhost := (cleanHost_starts _).mem (mem_copied h)
  exact absurd (List.mem_takeWhile_imp hhost) (by decide)

theorem sanitized_path_zero (cfg : SmbShare) : ZeroFree (smbClientSanitizeConfig cfg).path := by
  unfold smbClientSanitizeConfig
  dsimp only
  apply zeroFree_copied

theorem portField_lt (item : Text) : portField item < 2 ^ 31 := by
  unfold portField
  dsimp only
  split
  · exact Int.bmod_lt (by decide)
  · decide

theorem atoi_lt (text : Text) : atoi text < 2 ^ 31 :=
  Int.bmod_lt (by decide)

theorem cleanPort_bounds {port : Int} (h : port < 2 ^ 31) (host : Text) :
    0 < cleanPort port host ∧ cleanPort port host < 2 ^ 31 := by
  have hgiven : forall given : Int, given < 2 ^ 31 ->
      0 < (if given ≤ 0 then smbDefaultPort else given) ∧
        (if given ≤ 0 then smbDefaultPort else given) < 2 ^ 31 := by
    intro given hlt
    split
    · decide
    · rename_i hpos
      exact ⟨Int.not_le.mp hpos, hlt⟩
  apply hgiven
  split
  · exact h
  · split
    · exact atoi_lt _
    · exact h

theorem sanitized_port_bounds {cfg : SmbShare} (h : cfg.port < 2 ^ 31) :
    0 < (smbClientSanitizeConfig cfg).port ∧ (smbClientSanitizeConfig cfg).port < 2 ^ 31 := by
  unfold smbClientSanitizeConfig
  dsimp only
  exact cleanPort_bounds h _

end Smb
end PkgManager
