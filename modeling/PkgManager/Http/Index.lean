import PkgManager.Http.Json

/-!
# The scan of an index.json

The list is read entry by entry.  Each entry becomes an address, and an address is reported when
its hash is new and its last part is the name of a package.
-/

namespace PkgManager
namespace Http

open CString
open PkgManager.Parser
open PkgManager.Scanner (lowerText)

def fnv1a64 (text : Text) : UInt64 :=
  text.foldl (fun h b => (h ^^^ b.toUInt64) * 1099511628211) 1469598103934665603

/-- {lit}`ends_with_ci` -/
def endsWithCi (text : Text) (suffix : String) : Bool :=
  decide ((ascii suffix).length ≤ text.length) &&
    lowerText (text.drop (text.length - (ascii suffix).length)) == lowerText (ascii suffix)

/-- A call of {lit}`http_pkg_callback_t`. -/
structure Call where
  url : Text
  name : Text
  size : Nat
  mtime : Nat
deriving DecidableEq

/-- {lit}`scan_ctx_t`: what was reported, the hashes and the number of directories. -/
structure ScanCtx where
  calls : List Call
  seen : List UInt64
  dirs : Nat

def ScanCtx.start : ScanCtx where
  calls := []
  seen := []
  dirs := 0

def seenAdd (s : ScanCtx) (url : Text) : Bool × ScanCtx :=
  if s.seen.contains (fnv1a64 url) then (false, s)
  else (true, { s with seen := s.seen ++ [fnv1a64 url] })

/-- The last part of an address, as the name of a file. -/
def urlName (url : Text) : Text :=
  pctDecode 256 (url.rtakeWhile (fun b => b != 47))

/-- {lit}`emit_pkg`.  What a {lit}`HEAD` request finds is a parameter; there is none when the
caller does not want it. -/
def emitPkg (head : Option (Text -> Nat × Nat -> Nat × Nat)) (s : ScanCtx) (url : Text)
    (size mtime : Nat) (haveMeta : Bool) : ScanCtx :=
  let (new, s) := seenAdd s url
  if new = false then s
  else if endsWithCi (urlName url) ".pkg" = false then s
  else
    let found :=
      match head with
      | some probe => if haveMeta then (size, mtime) else probe url (size, mtime)
      | none => (size, mtime)
    { s with
      calls := s.calls ++ [{ url := url, name := urlName url, size := found.1, mtime := found.2 }] }

/-!
# Entries
-/

structure IndexEntry where
  path : Text
  size : Nat
  mtime : Nat
  haveSize : Bool
deriving DecidableEq

/-- The path of an object is in the first of three fields that can be read. -/
def objectPath (obj : Text) : Text :=
  let path := jsonGetStr obj "path" httpUrlMax []
  if path.2 then path.1
  else
    let url := jsonGetStr obj "url" httpUrlMax path.1
    if url.2 then url.1 else (jsonGetStr obj "name" httpUrlMax url.1).1

/-- One turn of the loop: the entry, if any, and the text behind it.  The loop ends where there
is none. -/
def indexEntry (p : Text) : Option (Option IndexEntry × Text) :=
  match p with
  | [] => none
  | b :: rest =>
      if b = quote then
        let parsed := jsonParseString httpUrlMax [] p
        parsed.2.map (fun rest =>
          (some { path := parsed.1, size := 0, mtime := 0, haveSize := false }, rest))
      else if b = 123 then
        (jsonMatch (p ++ [93])).map (fun parts =>
          (some
            { path := objectPath parts.1
              size := (jsonGetU64 parts.1 "size").getD 0
              mtime := (jsonGetU64 parts.1 "mtime").getD 0
              haveSize := (jsonGetU64 parts.1 "size").isSome },
            parts.2.dropLast))
      else some (none, rest)

def isBetween (b : UInt8) : Bool :=
  isSpace b || b == 44

/-- The address of an entry, when there is room for it. -/
def indexUrl (base path : Text) : Option Text :=
  if startsWithCi "http://" path || startsWithCi "https://" path then some (copied httpUrlMax path)
  else
    let enc := pctEncodePath httpUrlMax (path.dropWhile (fun b => b == 47))
    if httpUrlMax ≤ base.length + enc.length then none else some (base ++ enc)

variable (head : Option (Text -> Nat × Nat -> Nat × Nat)) (base : Text)

def scanEntry (s : ScanCtx) (entry : IndexEntry) : ScanCtx :=
  if entry.path = [] then s
  else
    match indexUrl base entry.path with
    | none => s
    | some url => emitPkg head s url entry.size (entry.mtime % 2 ^ 32) entry.haveSize

/-- The loop over the text between the brackets.  Each turn takes at least one byte. -/
def scanIndexFrom : (turns : Nat) -> ScanCtx -> Text -> ScanCtx
  | 0, s, _ => s
  | turns + 1, s, p =>
      match indexEntry (p.dropWhile isBetween) with
      | none => s
      | some (none, rest) => scanIndexFrom turns s rest
      | some (some entry, rest) => scanIndexFrom turns (scanEntry head base s entry) rest

/-- {lit}`scan_index_json` -/
def scanIndexJson (s : ScanCtx) (body : Text) : Option ScanCtx :=
  let arr :=
    match jsonValue "files" body with
    | some arr => arr
    | none => body.dropWhile isSpace
  match arr with
  | 91 :: _ =>
      (jsonMatch arr).map (fun parts => scanIndexFrom head base parts.1.length s (parts.1.drop 1))
  | _ => none

end Http
end PkgManager

/-!
# The tool that writes an index.json

The tool lists the packages of a folder and of the folders below it, and writes their paths,
sizes and dates as a JSON document.
-/

namespace PkgManager
namespace Http

open CString
open PkgManager.Parser

/-!
# Folders
-/

/-- The name of a file or a folder. -/
structure Name where
  chars : List Char
  nonempty : chars ≠ []
  slash : '/' ∉ chars
  zero : Char.ofNat 0 ∉ chars

structure FileStat where
  size : Nat
  size_lt : size < 2 ^ 63
  mtime : Int

inductive Tree where
  | folder (files : List (Name × FileStat)) (folders : List (Name × Tree))

def isHidden (name : List Char) : Bool :=
  name.head? == some '.'

/-- {lit}`str.lower`, as far as a letter of ASCII comes of it: the Kelvin sign becomes one too. -/
def pyLower (c : Char) : Char :=
  if c = Char.ofNat 0x212A then 'k' else c.toLower

def endsWithPkg (name : List Char) : Bool :=
  ".pkg".toList.isSuffixOf (name.map pyLower)

/-- {lit}`\d` is a parameter: a decimal digit of any script. -/
def endsWithPart (decimal : Char -> Bool) (name : List Char) : Bool :=
  !(name.rtakeWhile decimal).isEmpty &&
    ".part".toList.isSuffixOf ((name.rdropWhile decimal).map pyLower)

/-- {lit}`PART_RE.search` of a name that ends in {lit}`.pkg` or not. -/
def isPartName (decimal : Char -> Bool) (name : List Char) : Bool :=
  endsWithPart decimal name ||
    (endsWithPkg name && endsWithPart decimal (name.take (name.length - 4)))

def isListed (decimal : Char -> Bool) (name : List Char) : Bool :=
  !isHidden name && endsWithPkg name && !isPartName decimal name

/-- A listed file: the folder it is in, with a slash behind each part, and its name. -/
structure PkgFile where
  dir : List Char
  name : Name
  stat : FileStat

def PkgFile.path (f : PkgFile) : List Char :=
  f.dir ++ f.name.chars

/-- Strings are sorted by the numbers of their characters. -/
def charsLe : List Char -> List Char -> Bool
  | [], _ => true
  | _ :: _, [] => false
  | a :: as, b :: bs => if a = b then charsLe as bs else decide (a.toNat < b.toNat)

def nameLe (a b : Name) : Bool :=
  charsLe a.chars b.chars

/-- The packages of a folder, then those of its folders. -/
def collectFrom (decimal : Char -> Bool) (dir : List Char) : Tree -> List PkgFile
  | .folder files folders =>
      ((files.mergeSort (fun a b => nameLe a.1 b.1)).filter
        (fun f => isListed decimal f.1.chars)).map
          (fun f => { dir := dir, name := f.1, stat := f.2 }) ++
      ((folders.filter (fun d => !isHidden d.1.chars)).mergeSort
        (fun a b => nameLe a.1 b.1)).attach.flatMap
          (fun d => collectFrom decimal (dir ++ d.val.1.chars ++ ['/']) d.val.2)
termination_by tree => sizeOf tree
decreasing_by
  have hmem := (List.mem_filter.mp (List.mem_mergeSort.mp d.property)).1
  have hlt := List.sizeOf_lt_of_mem hmem
  have hpair : sizeOf d.val = 1 + sizeOf d.val.1 + sizeOf d.val.2 := rfl
  simp only [Tree.folder.sizeOf_spec]
  omega

/-- {lit}`collect` -/
def collect (decimal : Char -> Bool) (root : Tree) : List PkgFile :=
  collectFrom decimal [] root

/-!
# The document
-/

def utf8 (text : List Char) : Text :=
  text.flatMap String.utf8EncodeChar

def lowerHexChar (n : Nat) : Char :=
  "0123456789abcdef".toList.getD n '0'

/-- A character in a string of {lit}`json.dumps` with {lit}`ensure_ascii=False`. -/
def jsonEscapeChar (c : Char) : List Char :=
  if c = '"' then ['\\', '"']
  else if c = '\\' then ['\\', '\\']
  else if c.toNat = 10 then ['\\', 'n']
  else if c.toNat = 13 then ['\\', 'r']
  else if c.toNat = 9 then ['\\', 't']
  else if c.toNat = 12 then ['\\', 'f']
  else if c.toNat = 8 then ['\\', 'b']
  else if c.toNat < 32 then
    ['\\', 'u', '0', '0', lowerHexChar (c.toNat / 16), lowerHexChar (c.toNat % 16)]
  else [c]

def jsonString (text : List Char) : Text :=
  quote :: utf8 (text.flatMap jsonEscapeChar) ++ [quote]

def fileObject (f : PkgFile) : Text :=
  ascii "    \x7b\n      \"path\": " ++ jsonString f.path ++
    ascii ",\n      \"size\": " ++ digitsText f.stat.size ++
    ascii ",\n      \"mtime\": " ++ intText f.stat.mtime ++ ascii "\n    \x7d"

def fileList : List PkgFile -> Text
  | [] => []
  | [f] => fileObject f
  | f :: rest => fileObject f ++ ascii ",\n" ++ fileList rest

/-- {lit}`json.dumps` of the document, indented by two, with a line end behind it. -/
def indexText (files : List PkgFile) : Text :=
  ascii "\x7b\n  \"version\": 1,\n  \"files\": [" ++
    (if files.isEmpty then [] else ascii "\n" ++ fileList files ++ ascii "\n  ") ++
    ascii "]\n\x7d\n"

end Http
end PkgManager

/-!
# The scan of folder listings

A folder of a web source is listed by a page, whose links are taken, or by a list of names.  The
folders that a listing names are scanned after it.
-/

namespace PkgManager
namespace Http

open CString
open PkgManager.Parser
open PkgManager.Scanner (lowerText)

/-!
# Links of a page
-/

/-- {lit}`strcasestr` -/
def strcasestr (needle : String) : Text -> Option Text
  | [] => none
  | b :: rest => if startsWithCi needle (b :: rest) then some (b :: rest) else strcasestr needle rest

def skipBlanks (p : Text) : Text :=
  p.dropWhile (fun b => b == 32)

/-- The quote that a value stands in, if any, and the text behind it. -/
def valueQuote : Text -> Option UInt8 × Text
  | 34 :: rest => (some 34, rest)
  | 39 :: rest => (some 39, rest)
  | p => (none, p)

def inValue (quoted : Option UInt8) (b : UInt8) : Bool :=
  match quoted with
  | some q => b != q
  | none => b != 32 && b != 62

/-- The value behind an attribute's name, when there is one that fits, and the text behind it. -/
def hrefValue (p : Text) : Option Text × Text :=
  match skipBlanks p with
  | 61 :: rest =>
      let value := valueQuote (skipBlanks rest)
      let href := value.2.takeWhile (inValue value.1)
      (if href = [] ∨ httpUrlMax ≤ href.length then none else some href,
        value.2.dropWhile (inValue value.1))
  | p => (none, p)

/-- The values of the attributes of a page.  Each turn takes the four letters of a name. -/
def hrefsFrom : (turns : Nat) -> Text -> List Text
  | 0, _ => []
  | turns + 1, p =>
      match strcasestr "href" p with
      | none => []
      | some found =>
          let value := hrefValue (found.drop 4)
          value.1.toList ++ hrefsFrom turns value.2

def entities : List (String × UInt8) :=
  [("&amp;", 38), ("&lt;", 60), ("&gt;", 62), ("&quot;", 34), ("&#39;", 39), ("&#x27;", 39)]

/-- The loop of {lit}`html_unescape_inplace`.  Each turn takes at least one byte. -/
def htmlUnescapeFrom : (turns : Nat) -> Text -> Text
  | 0, _ => []
  | _ + 1, [] => []
  | turns + 1, b :: rest =>
      match entities.find? (fun e => b == 38 && startsWithCi e.1 (b :: rest)) with
      | some e => e.2 :: htmlUnescapeFrom turns ((b :: rest).drop (ascii e.1).length)
      | none => b :: htmlUnescapeFrom turns rest

def htmlUnescape (text : Text) : Text :=
  htmlUnescapeFrom text.length text

/-- The links of a page, as they are meant. -/
def hrefs (body : Text) : List Text :=
  (hrefsFrom (cString body).length (cString body)).map htmlUnescape

/-- Links that lead nowhere, or up. -/
def skipsHref (href : Text) : Bool :=
  href.head? == some 63 || href.head? == some 35 || startsWithCi "mailto:" href ||
    startsWithCi "javascript:" href || startsWith "../" href || href == ascii ".." ||
    href == ascii "./"

/-- {lit}`strncasecmp(abs, dir_url, dl) == 0 && strlen(abs) != dl` -/
def insideDir (dirUrl abs : Text) : Bool :=
  lowerText (abs.take dirUrl.length) == lowerText dirUrl && abs.length != dirUrl.length

/-- The address of a link, when it is taken. -/
def linkUrl (dirUrl href : Text) : Option Text :=
  if skipsHref href then none
  else (urlResolve dirUrl (href.takeWhile (fun b => b != 63)) httpUrlMax).filter (insideDir dirUrl)

/-!
# Lists of names
-/

structure NameEntry where
  name : Text
  type : Text
  mtime : Text
  size : Option Nat
deriving DecidableEq

def nameOfObject (obj : Text) : NameEntry where
  name := (jsonGetStr obj "name" 512 []).1
  type := (jsonGetStr obj "type" 16 []).1
  mtime := (jsonGetStr obj "mtime" 64 []).1
  size := jsonGetU64 obj "size"

def NameEntry.isDir (entry : NameEntry) : Bool :=
  entry.type == ascii "directory"

/-- One turn of the loop: the entry, if any, and the text behind it.  The loop ends where there
is none. -/
def nameEntry (p : Text) : Option (Option NameEntry × Text) :=
  match p with
  | [] => none
  | b :: rest =>
      if b = 123 then
        (jsonMatch (p ++ [93])).map (fun parts =>
          (some (nameOfObject parts.1), parts.2.dropLast))
      else some (none, rest)

/-- The entries between the brackets.  Each turn takes at least one byte. -/
def nameEntriesFrom : (turns : Nat) -> Text -> List NameEntry
  | 0, _ => []
  | turns + 1, p =>
      match nameEntry (p.dropWhile isBetween) with
      | none => []
      | some (entry, rest) => entry.toList ++ nameEntriesFrom turns rest

def nameEntries (body : Text) : Option (List NameEntry) :=
  match body.dropWhile isSpace with
  | 91 :: rest =>
      (jsonMatch (91 :: rest)).map (fun parts => nameEntriesFrom parts.1.length (parts.1.drop 1))
  | _ => none

/-- The address of an entry, when it has a plain name and there is room for it. -/
def nameUrl (dirUrl : Text) (entry : NameEntry) : Option Text :=
  if entry.name = [] ∨ entry.name.head? = some 46 ∨ 47 ∈ entry.name then none
  else
    let enc := pctEncodePath httpUrlMax entry.name
    if httpUrlMax ≤ dirUrl.length + enc.length + 2 then none
    else some (dirUrl ++ enc ++ (if entry.isDir then [47] else []))

/-!
# Listings

What a {lit}`HEAD` request finds and how a date is read are parameters.
-/

variable (head : Option (Text -> Nat × Nat -> Nat × Nat)) (parseHttpDate : Text -> Nat)

/-- A folder is scanned later when it is new. -/
def addSubdir (deeper : Bool) (st : ScanCtx × List Text) (abs : Text) : ScanCtx × List Text :=
  if deeper = false then st
  else
    let (new, s) := seenAdd st.1 abs
    (s, if new then st.2 ++ [abs] else st.2)

def scanLink (deeper : Bool) (dirUrl : Text) (st : ScanCtx × List Text) (href : Text) :
    ScanCtx × List Text :=
  match linkUrl dirUrl href with
  | none => st
  | some abs =>
      if abs.getLast? = some 47 then addSubdir deeper st abs
      else (emitPkg head st.1 abs 0 0 false, st.2)

def scanName (deeper : Bool) (dirUrl : Text) (st : ScanCtx × List Text) (entry : NameEntry) :
    ScanCtx × List Text :=
  match nameUrl dirUrl entry with
  | none => st
  | some abs =>
      if entry.isDir then addSubdir deeper st abs
      else if entry.type = ascii "file" then
        (emitPkg head st.1 abs (entry.size.getD 0) (parseHttpDate entry.mtime) entry.size.isSome,
          st.2)
      else st

/-- What a listing reports, and the folders that it names. -/
def scanListing (deeper : Bool) (dirUrl body : Text) (s : ScanCtx) : Option (ScanCtx × List Text) :=
  if (body.dropWhile isSpace).head? = some 91 then
    (nameEntries body).map (fun entries =>
      entries.foldl (scanName head parseHttpDate deeper dirUrl) (s, []))
  else some ((hrefs body).foldl (scanLink head deeper dirUrl) (s, []))

/-!
# Folders
-/

def httpMaxDepth : Nat := 5

def httpMaxDirs : Nat := 512

/-- A scan, with the folders that were asked for. -/
structure Walk where
  ctx : ScanCtx
  visited : List Text

def Walk.visit (w : Walk) (dirUrl : Text) : Walk where
  ctx := { w.ctx with dirs := w.ctx.dirs + 1 }
  visited := w.visited ++ [dirUrl]

/-- A folder that cannot be listed is an error where the scan starts. -/
def unlisted (levels : Nat) : Int :=
  if levels = httpMaxDepth then -1 else 0

variable (page : Nat -> Text -> Option Text)

/-- {lit}`scan_html_dir`, with as many levels as are left.  A page is the body of the answer with
the status 200 to the next request. -/
def scanHtmlDir : (levels : Nat) -> Walk -> Text -> Int × Walk
  | 0, w, _ => (0, w)
  | levels + 1, w, dirUrl =>
      if httpMaxDirs ≤ w.ctx.dirs then (0, w)
      else
        match page w.visited.length dirUrl with
        | none => (unlisted levels, w.visit dirUrl)
        | some body =>
            match scanListing head parseHttpDate (levels != 0) dirUrl body
              (w.visit dirUrl).ctx with
            | none => (unlisted levels, w.visit dirUrl)
            | some (s, subdirs) =>
                (0, subdirs.foldl (fun w sub => (scanHtmlDir levels w sub).2)
                  { w.visit dirUrl with ctx := s })

/-- The last step of {lit}`scan_run`: the folder of the source is listed. -/
def scanSourceDir (s : ScanCtx) (url : Text) : Int × Walk :=
  let (new, s) := seenAdd s url
  if new then
    scanHtmlDir head parseHttpDate page (httpMaxDepth + 1) { ctx := s, visited := [] } url
  else (0, { ctx := s, visited := [] })

end Http
end PkgManager
