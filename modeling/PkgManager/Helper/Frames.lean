import PkgManager.Bytes.CString
import PkgManager.Bytes.Endian

/-!
# The frames of the install helper

A request and a response are C records of one size each, sent as the bytes of
the record.  A {lit}`char` array holds exactly the bytes of its width, and what
is read back from the bytes of a record is the record.
-/

namespace PkgManager
namespace Helper

open CString Endian Struct

/-!
# Fields
-/

/-- A {lit}`char` array. -/
def Chars (width : Nat) : Type :=
  { bytes : List UInt8 // bytes.length = width }

instance (width : Nat) : DecidableEq (Chars width) :=
  inferInstanceAs (DecidableEq { bytes : List UInt8 // bytes.length = width })

/-- {lit}`strcpy` of a text into an array of zeros. -/
def Chars.ofText (width : Nat) (text : List UInt8) : Chars width :=
  ⟨padded width text, length_padded width text⟩

def Chars.text {width : Nat} (chars : Chars width) : List UInt8 :=
  cString chars.val

/-- {lit}`chars[sizeof(chars) - 1] = 0` -/
def Chars.closed {width : Nat} (chars : Chars width) : Chars width :=
  ⟨chars.val.set (width - 1) 0, by rw [List.length_set, chars.property]⟩

/-- {lit}`memchr(chars, 0, sizeof(chars))` -/
def Chars.isClosed {width : Nat} (chars : Chars width) : Bool :=
  chars.val.contains 0

@[simp] theorem Chars.ofText_val {width : Nat} (chars : Chars width) :
    Chars.ofText width chars.val = chars :=
  Subtype.ext (padded_of_length chars.property)

def unsigned (value : UInt32) : Field :=
  Field.number 4 value.toNat

def signed (value : Int32) : Field :=
  Field.number 4 value.toUInt32.toNat

def unsigned64 (value : UInt64) : Field :=
  Field.number 8 value.toNat

def boolean (value : Bool) : Field :=
  Field.number 1 value.toNat

def chars {width : Nat} (value : Chars width) : Field :=
  Field.text width value.val

def padding (width : Nat) : Field :=
  Field.text width []

/-!
# Records
-/

def INSTALL_IPC_MAGIC : UInt32 := 0x504b4749
def INSTALL_IPC_VERSION : UInt32 := 2
def INSTALL_IPC_READY : UInt32 := 0
def INSTALL_IPC_INSTALL : UInt32 := 1
def INSTALL_IPC_STATUS : UInt32 := 2
def INSTALL_IPC_SHORTCUT : UInt32 := 3
def INSTALL_IPC_CLOSE : UInt32 := 4

def INSTALL_SERVICE_UNAVAILABLE : Int32 := -2001
def INSTALL_SERVICE_DISCONNECTED : Int32 := -2002
def INSTALL_SERVICE_CANCELED : Int32 := -2003
def INSTALL_SERVICE_TIMEOUT : Int32 := -2004

structure Request where
  magic : UInt32 := 0
  version : UInt32 := 0
  op : UInt32
  uri : Chars 1024 := Chars.ofText 1024 []
  name : Chars 320 := Chars.ofText 320 []
  iconUrl : Chars 512 := Chars.ofText 512 []
  titleId : Chars 32 := Chars.ofText 32 []
  directory : Chars 64 := Chars.ofText 64 []
deriving DecidableEq

structure PkgInfo where
  contentId : Chars 48 := Chars.ofText 48 []
  type : Int32 := 0
  platform : Int32 := 0
deriving DecidableEq

structure ErrorInfo where
  errorCode : Int32 := 0
  version : Int32 := 0
  description : Chars 512 := Chars.ofText 512 []
  type : Chars 9 := Chars.ofText 9 []
deriving DecidableEq

structure InstallStatus where
  status : Chars 16 := Chars.ofText 16 []
  srcType : Chars 8 := Chars.ofText 8 []
  remainTime : UInt32 := 0
  downloadedSize : UInt64 := 0
  initialChunkSize : UInt64 := 0
  totalSize : UInt64 := 0
  promoteProgress : UInt32 := 0
  errorInfo : ErrorInfo := {}
  localCopyPercent : Int32 := 0
  isCopyOnly : Bool := false
deriving DecidableEq

structure Response where
  magic : UInt32 := 0
  version : UInt32 := 0
  op : UInt32 := 0
  result : Int32 := 0
  pid : Int32 := 0
  nativeMs : UInt32 := 0
  nativeErrno : Int32 := 0
  buildCommit : Chars 64 := Chars.ofText 64 []
  info : PkgInfo := {}
  status : InstallStatus := {}
deriving DecidableEq

/-!
# Bytes of the records
-/

def requestWidths : List Nat := [4, 4, 4, 1024, 320, 512, 32, 64]

def Request.fields (r : Request) : List Field :=
  [unsigned r.magic, unsigned r.version, unsigned r.op, chars r.uri, chars r.name,
    chars r.iconUrl, chars r.titleId, chars r.directory]

def Request.bytes (r : Request) : List UInt8 :=
  (pack r.fields).getD []

/-- The eight-byte numbers of the status are aligned, which leaves gaps. -/
def responseWidths : List Nat :=
  [4, 4, 4, 4, 4, 4, 4, 64, 48, 4, 4, 4, 16, 8, 4, 4, 8, 8, 8, 4, 4, 4, 512, 9, 3, 4, 1, 3]

def Response.fields (r : Response) : List Field :=
  [unsigned r.magic, unsigned r.version, unsigned r.op, signed r.result, signed r.pid,
    unsigned r.nativeMs, signed r.nativeErrno, chars r.buildCommit,
    chars r.info.contentId, signed r.info.type, signed r.info.platform, padding 4,
    chars r.status.status, chars r.status.srcType, unsigned r.status.remainTime, padding 4,
    unsigned64 r.status.downloadedSize, unsigned64 r.status.initialChunkSize,
    unsigned64 r.status.totalSize, unsigned r.status.promoteProgress,
    signed r.status.errorInfo.errorCode, signed r.status.errorInfo.version,
    chars r.status.errorInfo.description, chars r.status.errorInfo.type, padding 3,
    signed r.status.localCopyPercent, boolean r.status.isCopyOnly, padding 3]

def Response.bytes (r : Response) : List UInt8 :=
  (pack r.fields).getD []

section Reading

variable (parts : List (List UInt8))

def readUnsigned (k : Nat) : UInt32 :=
  UInt32.ofNat (ofLittleEndian (parts.getD k []))

def readSigned (k : Nat) : Int32 :=
  (readUnsigned parts k).toInt32

def readUnsigned64 (k : Nat) : UInt64 :=
  UInt64.ofNat (ofLittleEndian (parts.getD k []))

def readBoolean (k : Nat) : Bool :=
  ofLittleEndian (parts.getD k []) != 0

def readChars (width k : Nat) : Chars width :=
  Chars.ofText width (parts.getD k [])

def requestOf : Request where
  magic := readUnsigned parts 0
  version := readUnsigned parts 1
  op := readUnsigned parts 2
  uri := readChars parts 1024 3
  name := readChars parts 320 4
  iconUrl := readChars parts 512 5
  titleId := readChars parts 32 6
  directory := readChars parts 64 7

def errorInfoOf : ErrorInfo where
  errorCode := readSigned parts 20
  version := readSigned parts 21
  description := readChars parts 512 22
  type := readChars parts 9 23

def statusOf : InstallStatus where
  status := readChars parts 16 12
  srcType := readChars parts 8 13
  remainTime := readUnsigned parts 14
  downloadedSize := readUnsigned64 parts 16
  initialChunkSize := readUnsigned64 parts 17
  totalSize := readUnsigned64 parts 18
  promoteProgress := readUnsigned parts 19
  errorInfo := errorInfoOf parts
  localCopyPercent := readSigned parts 25
  isCopyOnly := readBoolean parts 26

def infoOf : PkgInfo where
  contentId := readChars parts 48 8
  type := readSigned parts 9
  platform := readSigned parts 10

def responseOf : Response where
  magic := readUnsigned parts 0
  version := readUnsigned parts 1
  op := readUnsigned parts 2
  result := readSigned parts 3
  pid := readSigned parts 4
  nativeMs := readUnsigned parts 5
  nativeErrno := readSigned parts 6
  buildCommit := readChars parts 64 7
  info := infoOf parts
  status := statusOf parts

end Reading

def Request.ofBytes (bytes : List UInt8) : Request :=
  requestOf (split requestWidths bytes)

def Response.ofBytes (bytes : List UInt8) : Response :=
  responseOf (split responseWidths bytes)

/-!
# Reading back

The split of the bytes of packed fields is the list of the encoded fields.
-/

/-- Every field of the records can be written. -/
def Written (f : Field) : Prop :=
  f.encode.isSome = true

theorem written_unsigned (value : UInt32) : Written (unsigned value) :=
  number_isSome value.toNat_lt

theorem written_unsigned64 (value : UInt64) : Written (unsigned64 value) :=
  number_isSome value.toNat_lt

theorem written_boolean (value : Bool) : Written (boolean value) := by
  cases value with
  | false => rfl
  | true => rfl

theorem written_chars {width : Nat} (value : Chars width) : Written (chars value) := rfl

theorem written_padding (width : Nat) : Written (padding width) := rfl

theorem pack_getD {fs : List Field} (h : forall f, f ∈ fs -> Written f) :
    pack fs = some ((pack fs).getD []) := by
  rcases Option.isSome_iff_exists.mp (pack_isSome h) with ⟨bytes, hbytes⟩
  rw [hbytes]
  rfl

section Parts

variable {fs : List Field} {bytes : List UInt8} (hpack : pack fs = some bytes)

include hpack

theorem readUnsigned_part {k : Nat} {value : UInt32} (hf : fs[k]? = some (unsigned value)) :
    readUnsigned (split (fs.map Field.width) bytes) k = value := by
  have h := (number_split hpack [] hf).1
  rw [List.append_nil] at h
  rw [readUnsigned, h, UInt32.ofNat_toNat]

theorem readSigned_part {k : Nat} {value : Int32} (hf : fs[k]? = some (signed value)) :
    readSigned (split (fs.map Field.width) bytes) k = value := by
  have h : readUnsigned (split (fs.map Field.width) bytes) k = value.toUInt32 :=
    readUnsigned_part hpack hf
  rw [readSigned, h, Int32.toInt32_toUInt32]

theorem readUnsigned64_part {k : Nat} {value : UInt64} (hf : fs[k]? = some (unsigned64 value)) :
    readUnsigned64 (split (fs.map Field.width) bytes) k = value := by
  have h := (number_split hpack [] hf).1
  rw [List.append_nil] at h
  rw [readUnsigned64, h, UInt64.ofNat_toNat]

theorem readBoolean_part {k : Nat} {value : Bool} (hf : fs[k]? = some (boolean value)) :
    readBoolean (split (fs.map Field.width) bytes) k = value := by
  have h := (number_split hpack [] hf).1
  rw [List.append_nil] at h
  rw [readBoolean, h]
  cases value with
  | false => rfl
  | true => rfl

theorem readChars_part {width k : Nat} {value : Chars width} (hf : fs[k]? = some (chars value)) :
    readChars (split (fs.map Field.width) bytes) width k = value := by
  have h := text_split hpack [] hf
  rw [List.append_nil, padded_of_length value.property] at h
  rw [readChars, h, Chars.ofText_val]

end Parts

/-!
# Requests
-/

theorem Request.pack_fields (r : Request) : pack r.fields = some r.bytes := by
  refine pack_getD ?_
  intro f hf
  simp only [Request.fields, List.mem_cons, List.not_mem_nil, or_false] at hf
  rcases hf with h | h | h | h | h | h | h | h <;> rw [h]
  · exact written_unsigned _
  · exact written_unsigned _
  · exact written_unsigned _
  · exact written_chars _
  · exact written_chars _
  · exact written_chars _
  · exact written_chars _
  · exact written_chars _

theorem Request.width_fields (r : Request) : r.fields.map Field.width = requestWidths := rfl

@[simp] theorem Request.length_bytes (r : Request) : r.bytes.length = 1964 := by
  rw [length_pack r.pack_fields, r.width_fields]
  rfl

@[simp] theorem Request.ofBytes_bytes (r : Request) : Request.ofBytes r.bytes = r := by
  have h := r.pack_fields
  rw [Request.ofBytes, ← r.width_fields, requestOf, readUnsigned_part h (k := 0) rfl,
    readUnsigned_part h (k := 1) rfl, readUnsigned_part h (k := 2) rfl,
    readChars_part h (k := 3) rfl, readChars_part h (k := 4) rfl,
    readChars_part h (k := 5) rfl, readChars_part h (k := 6) rfl,
    readChars_part h (k := 7) rfl]

/-!
# Responses
-/

theorem Response.pack_fields (r : Response) : pack r.fields = some r.bytes := by
  refine pack_getD ?_
  intro f hf
  simp only [Response.fields, List.mem_cons, List.not_mem_nil, or_false] at hf
  rcases hf with h | h | h | h | h | h | h | h | h | h | h | h | h | h | h | h | h | h | h | h |
    h | h | h | h | h | h | h | h <;> rw [h]
  all_goals
    first
      | exact written_unsigned _
      | exact written_signed _
      | exact written_unsigned64 _
      | exact written_boolean _
      | exact written_chars _
      | exact written_padding _

theorem Response.width_fields (r : Response) : r.fields.map Field.width = responseWidths := rfl

@[simp] theorem Response.length_bytes (r : Response) : r.bytes.length = 752 := by
  rw [length_pack r.pack_fields, r.width_fields]
  rfl

theorem infoOf_bytes (r : Response) : infoOf (split responseWidths r.bytes) = r.info := by
  have h := r.pack_fields
  rw [← r.width_fields, infoOf, readChars_part h (k := 8) rfl, readSigned_part h (k := 9) rfl,
    readSigned_part h (k := 10) rfl]

theorem errorInfoOf_bytes (r : Response) :
    errorInfoOf (split responseWidths r.bytes) = r.status.errorInfo := by
  have h := r.pack_fields
  rw [← r.width_fields, errorInfoOf, readSigned_part h (k := 20) rfl,
    readSigned_part h (k := 21) rfl, readChars_part h (k := 22) rfl, readChars_part h (k := 23) rfl]

theorem statusOf_bytes (r : Response) : statusOf (split responseWidths r.bytes) = r.status := by
  have h := r.pack_fields
  rw [statusOf, errorInfoOf_bytes, ← r.width_fields, readChars_part h (k := 12) rfl,
    readChars_part h (k := 13) rfl, readUnsigned_part h (k := 14) rfl,
    readUnsigned64_part h (k := 16) rfl, readUnsigned64_part h (k := 17) rfl,
    readUnsigned64_part h (k := 18) rfl, readUnsigned_part h (k := 19) rfl,
    readSigned_part h (k := 25) rfl, readBoolean_part h (k := 26) rfl]

@[simp] theorem Response.ofBytes_bytes (r : Response) : Response.ofBytes r.bytes = r := by
  have h := r.pack_fields
  rw [Response.ofBytes, responseOf, infoOf_bytes, statusOf_bytes, ← r.width_fields,
    readUnsigned_part h (k := 0) rfl, readUnsigned_part h (k := 1) rfl,
    readUnsigned_part h (k := 2) rfl, readSigned_part h (k := 3) rfl,
    readSigned_part h (k := 4) rfl, readUnsigned_part h (k := 5) rfl,
    readSigned_part h (k := 6) rfl, readChars_part h (k := 7) rfl]

end Helper
end PkgManager
