import PkgManager.Http.Escapes

/-!
# The reader on the document

Each object of the document is one entry for the reader, with the fields that the writer gave
it.
-/

namespace PkgManager
namespace Http

open CString
open PkgManager.Parser
open PkgManager.Smb (digitsValue digitsText_digit digitsValue_digitsText isDigit_ne)

/-!
# Texts between the marks
-/

theorem jsonValue_otherKey {key other : String} (hkey : (ascii key).head?.all (· != 58))
    (hone : (quoted key).isPrefixOf (quoted other) = false)
    (htwo : (quoted other).isPrefixOf (quoted key) = false) (hne : ascii key ≠ [])
    (hquote : quote ∉ ascii other) (rest : Text) :
    jsonValue key (quoted other ++ 58 :: 32 :: rest) = jsonValue key rest := by
  have hskip : (quoted key).isPrefixOf (quoted other ++ 58 :: 32 :: rest) = false := by
    rw [Bool.eq_false_iff, ne_eq, List.isPrefixOf_iff_prefix]
    intro hstarts
    rcases List.prefix_or_prefix_of_prefix hstarts (List.prefix_append _ _) with h | h
    · rw [List.isPrefixOf_iff_prefix.mpr h] at hone
      cases hone
    · rw [List.isPrefixOf_iff_prefix.mpr h] at htwo
      cases htwo
  have hclose : (quoted key).isPrefixOf (quote :: 58 :: 32 :: rest) = false := by
    cases hkeyText : ascii key with
    | nil => exact absurd hkeyText hne
    | cons k more =>
        rw [hkeyText] at hkey
        have hk : (k == 58) = false := beq_false_of_ne (bne_iff_ne.mp hkey)
        rw [quoted, hkeyText, List.cons_append, List.isPrefixOf, List.isPrefixOf, hk,
          Bool.false_and, Bool.and_false]
  have hshape : quoted other ++ 58 :: 32 :: rest =
      quote :: (ascii other ++ quote :: 58 :: 32 :: rest) := by
    rw [quoted, List.cons_append, List.append_assoc, List.singleton_append]
  rw [hshape] at hskip ⊢
  have hblank : quote ∉ [(58 : UInt8), 32] := by decide
  rw [jsonValue_skip hskip, jsonValue_noQuote hquote, jsonValue_skip hclose]
  exact jsonValue_noQuote hblank rest

theorem digitsText_ne_nil (n : Nat) : digitsText n ≠ [] := by
  unfold digitsText
  rw [ne_eq, List.map_eq_nil_iff]
  exact Nat.toDigits_ne_nil

theorem quote_not_digits (n : Nat) : quote ∉ digitsText n :=
  fun h => absurd (digitsText_digit h) (by decide)

theorem digits_plain {opener closer : UInt8} (hopener : isDigit opener = false)
    (hcloser : isDigit closer = false) (n : Nat) :
    (digitsText n).all (isPlain opener closer) = true := by
  rw [List.all_eq_true]
  intro b hb
  have hdigit := digitsText_digit hb
  simp only [isPlain, Bool.and_eq_true, bne_iff_ne]
  exact ⟨⟨⟨isDigit_ne hdigit (by decide), isDigit_ne hdigit (by decide)⟩,
    isDigit_ne hdigit hopener⟩, isDigit_ne hdigit hcloser⟩

/-- The brackets of lists and objects. -/
def IsBrackets (opener closer : UInt8) : Prop :=
  opener = 123 ∧ closer = 125 ∨ opener = 91 ∧ closer = 93

section Brackets

variable {opener closer : UInt8}

theorem neutral_digits (h : IsBrackets opener closer) (n : Nat) :
    Neutral opener closer (digitsText n) := by
  apply Neutral.plain
  rcases h with ⟨rfl, rfl⟩ | ⟨rfl, rfl⟩ <;> exact digits_plain (by decide) (by decide) n

theorem neutral_intText (h : IsBrackets opener closer) (n : Int) :
    Neutral opener closer (intText n) := by
  unfold intText
  split
  · apply Neutral.append _ (neutral_digits h _)
    apply Neutral.plain
    rcases h with ⟨rfl, rfl⟩ | ⟨rfl, rfl⟩ <;> decide
  · exact neutral_digits h _

theorem neutral_quoted {key : String} (h : (ascii key).all isBare = true) :
    Neutral opener closer (quoted key) :=
  Neutral.string (Inside.bare h)

/-- What the writer puts around a key. -/
theorem neutral_key {front : String} (key : String) (h : IsBrackets opener closer)
    (hfront : front = "\n      " ∨ front = ",\n      ") (hkey : (ascii key).all isBare = true) :
    Neutral opener closer (ascii front ++ quoted key ++ [58, 32]) := by
  apply Neutral.append
  · apply Neutral.append _ (neutral_quoted hkey)
    apply Neutral.plain
    rcases h with ⟨rfl, rfl⟩ | ⟨rfl, rfl⟩ <;> rcases hfront with rfl | rfl <;> decide
  · apply Neutral.plain
    rcases h with ⟨rfl, rfl⟩ | ⟨rfl, rfl⟩ <;> decide

end Brackets

/-!
# One object
-/

/-- The text of an object between its brackets. -/
def objectText (f : PkgFile) : Text :=
  ascii "\n      " ++ quoted "path" ++ [58, 32] ++ jsonString f.path ++
    (ascii ",\n      " ++ quoted "size" ++ [58, 32] ++ digitsText f.stat.size) ++
    (ascii ",\n      " ++ quoted "mtime" ++ [58, 32] ++ intText f.stat.mtime) ++ ascii "\n    "

theorem fileObject_eq (f : PkgFile) :
    fileObject f = ascii "    " ++ 123 :: objectText f ++ [125] := by
  have hopen : ascii "    \x7b\n      \"path\": " =
      ascii "    " ++ 123 :: (ascii "\n      " ++ quoted "path" ++ [58, 32]) := by decide
  have hsize : ascii ",\n      \"size\": " = ascii ",\n      " ++ quoted "size" ++ [58, 32] := by decide
  have hmtime : ascii ",\n      \"mtime\": " = ascii ",\n      " ++ quoted "mtime" ++ [58, 32] := by decide
  have hclose : ascii "\n    \x7d" = ascii "\n    " ++ [125] := by decide
  rw [fileObject, objectText, hopen, hsize, hmtime, hclose]
  simp only [List.append_assoc, List.cons_append]

theorem neutral_object {opener closer : UInt8} (h : IsBrackets opener closer) (f : PkgFile) :
    Neutral opener closer (objectText f) := by
  have hblank : Neutral opener closer (ascii "\n    ") := by
    apply Neutral.plain
    rcases h with ⟨rfl, rfl⟩ | ⟨rfl, rfl⟩ <;> decide
  have hpath := neutral_key "path" h (Or.inl rfl) (by decide)
  have hsize := neutral_key "size" h (Or.inr rfl) (by decide)
  have hmtime := neutral_key "mtime" h (Or.inr rfl) (by decide)
  exact (((hpath.append (neutral_string f.path _ _)).append
    (hsize.append (neutral_digits h _))).append (hmtime.append (neutral_intText h _))).append hblank

/-- What stands behind the digits of the size. -/
def mtimePart (f : PkgFile) : Text :=
  44 :: (ascii "\n      " ++ (quoted "mtime" ++ 58 :: 32 :: (intText f.stat.mtime ++ ascii "\n    ")))

/-- What stands behind the comma that is behind the path. -/
def sizePart (f : PkgFile) : Text :=
  ascii "\n      " ++ (quoted "size" ++ 58 :: 32 :: (digitsText f.stat.size ++ mtimePart f))

theorem object_shape (f : PkgFile) :
    123 :: objectText f = (123 :: ascii "\n      ") ++
      (quoted "path" ++ 58 :: 32 :: (jsonString f.path ++ 44 :: sizePart f)) := by
  have hcomma : ascii ",\n      " = 44 :: ascii "\n      " := by decide
  rw [objectText, sizePart, mtimePart, hcomma]
  simp only [List.append_assoc, List.cons_append, List.nil_append]

section Fields

variable (f : PkgFile)

theorem object_path (h : Char.ofNat 0 ∉ f.path) :
    objectPath (123 :: objectText f) = (utf8 f.path).take (httpUrlMax - 1) := by
  have hvalue : jsonValue "path" (123 :: objectText f) =
      some (jsonString f.path ++ 44 :: sizePart f) := by
    rw [object_shape, jsonValue_noQuote (by decide)]
    exact jsonValue_found (by decide)
  have hread : jsonGetStr (123 :: objectText f) "path" httpUrlMax [] =
      ((utf8 f.path).take (httpUrlMax - 1), true) := by
    rw [jsonGetStr, hvalue]
    dsimp only
    rw [jsonParseString_written h]
    rfl
  rw [objectPath, hread]
  rfl

/-- The path hides no other key. -/
theorem jsonValue_behindPath {key : String} (hkey : PlainKey key)
    (hhead : (ascii key).head?.all (· != 58)) (hone : (quoted key).isPrefixOf (quoted "path") = false)
    (htwo : (quoted "path").isPrefixOf (quoted key) = false) :
    jsonValue key (123 :: objectText f) = jsonValue key (sizePart f) := by
  have hstring : jsonString f.path = quote :: f.path.flatMap escapedBytes ++ [quote] := by
    rw [jsonString, utf8_escaped]
  have hcomma : quote ∉ [(44 : UInt8)] := by decide
  rw [object_shape, jsonValue_noQuote (by decide),
    jsonValue_otherKey hhead hone htwo hkey.1 (by decide), hstring,
    jsonValue_string hkey (quotesEscaped_escaped f.path)]
  exact jsonValue_noQuote hcomma _

theorem plainKey_size : PlainKey "size" := by
  refine ⟨?_, ?_, ?_, ?_⟩ <;> decide

theorem plainKey_mtime : PlainKey "mtime" := by
  refine ⟨?_, ?_, ?_, ?_⟩ <;> decide

/-- The digits of a number end where another byte follows. -/
theorem takeWhile_digits (n : Nat) {b : UInt8} (hb : isDigit b = false) (rest : Text) :
    (digitsText n ++ b :: rest).takeWhile isDigit = digitsText n := by
  rw [List.takeWhile_append_of_pos (fun _ h => digitsText_digit h), List.takeWhile_cons_of_neg]
  · exact List.append_nil _
  · rw [hb]
    exact Bool.false_ne_true

/-- A number is read from the place of its digits. -/
theorem jsonGetU64_digits {obj : Text} {key : String} {n : Nat} {b : UInt8} {rest : Text}
    (hb : isDigit b = false)
    (hvalue : jsonValue key obj = some (digitsText n ++ b :: rest)) :
    jsonGetU64 obj key = some (min n (2 ^ 64 - 1)) := by
  rcases List.exists_cons_of_ne_nil (digitsText_ne_nil n) with ⟨d, more, hdigits⟩
  have hd : isDigit d = true := digitsText_digit (hdigits ▸ List.mem_cons_self)
  have hnot : (digitsText n ++ b :: rest).head? ≠ some quote := by
    rw [hdigits, List.cons_append, List.head?_cons]
    intro h
    exact isDigit_ne hd (by decide) (Option.some.inj h)
  have hhead : (digitsText n ++ b :: rest).head?.any isDigit = true := by
    rw [hdigits]
    exact hd
  rw [jsonGetU64, hvalue]
  dsimp only
  rw [if_neg hnot, if_pos hhead, takeWhile_digits n hb, digitsValue_digitsText]

theorem isSpace_digit {b : UInt8} (h : isDigit b = true) : isSpace b = false := by
  have hdigit := of_decide_eq_true h
  rw [Bool.eq_false_iff]
  intro hspace
  rw [isSpace, Bool.or_eq_true, beq_iff_eq, decide_eq_true_eq] at hspace
  rcases hspace with rfl | hlow
  · exact absurd hdigit (by decide)
  · omega

theorem jsonValue_number {key : String} {n : Nat} {rest : Text} :
    jsonValue key (quoted key ++ 58 :: 32 :: (digitsText n ++ rest)) =
      some (digitsText n ++ rest) := by
  rcases List.exists_cons_of_ne_nil (digitsText_ne_nil n) with ⟨d, more, hdigits⟩
  have hd : isDigit d = true := digitsText_digit (hdigits ▸ List.mem_cons_self)
  rw [hdigits]
  exact jsonValue_found (isSpace_digit hd)

theorem object_size : jsonGetU64 (123 :: objectText f) "size" = some f.stat.size := by
  have hvalue : jsonValue "size" (123 :: objectText f) =
      some (digitsText f.stat.size ++ mtimePart f) := by
    rw [jsonValue_behindPath f plainKey_size (by decide) (by decide) (by decide), sizePart,
      jsonValue_noQuote (by decide), jsonValue_number]
  have hlt := f.stat.size_lt
  rw [jsonGetU64_digits (by decide) hvalue, min_eq_left (by omega)]

/-- The date as the reader gets it: a date before the epoch is not read. -/
def readMtime (mtime : Int) : Nat :=
  if mtime < 0 then 0 else min mtime.toNat (2 ^ 64 - 1)

theorem object_mtime :
    (jsonGetU64 (123 :: objectText f) "mtime").getD 0 = readMtime f.stat.mtime := by
  have hplace : jsonValue "mtime" (123 :: objectText f) = jsonValue "mtime"
      (quoted "mtime" ++ 58 :: 32 :: (intText f.stat.mtime ++ ascii "\n    ")) := by
    have hcomma : quote ∉ 44 :: ascii "\n      " := by decide
    rw [jsonValue_behindPath f plainKey_mtime (by decide) (by decide) (by decide), sizePart,
      jsonValue_noQuote (by decide),
      jsonValue_otherKey (by decide) (by decide) (by decide) (by decide) (by decide),
      jsonValue_noQuote (quote_not_digits _)]
    exact jsonValue_noQuote hcomma _
  unfold readMtime
  split
  · rename_i hneg
    have hvalue : jsonValue "mtime" (123 :: objectText f) =
        some (45 :: (digitsText f.stat.mtime.natAbs ++ ascii "\n    ")) := by
      rw [hplace, intText, if_pos hneg]
      exact jsonValue_found (by decide)
    rw [jsonGetU64, hvalue]
    rfl
  · rename_i hpos
    have hvalue : jsonValue "mtime" (123 :: objectText f) =
        some (digitsText f.stat.mtime.natAbs ++ 10 :: ascii "    ") := by
      rw [hplace, intText, if_neg hpos]
      exact jsonValue_number
    have habs : f.stat.mtime.natAbs = f.stat.mtime.toNat := by omega
    rw [jsonGetU64_digits (by decide) hvalue, Option.getD_some, habs]

end Fields

/-!
# The list
-/

/-- The entry that is read for a file. -/
def entryOf (f : PkgFile) : IndexEntry where
  path := (utf8 f.path).take (httpUrlMax - 1)
  size := f.stat.size
  mtime := readMtime f.stat.mtime
  haveSize := true

theorem indexEntry_object {f : PkgFile} (h : Char.ofNat 0 ∉ f.path) (rest : Text) :
    indexEntry (123 :: objectText f ++ 125 :: rest) = some (some (entryOf f), rest) := by
  have hbrackets : IsBrackets 123 125 := Or.inl ⟨rfl, rfl⟩
  have hmatch : jsonMatch (123 :: objectText f ++ 125 :: rest ++ [93]) =
      some (123 :: objectText f, rest ++ [93]) := by
    have hbehind : 125 :: rest ++ [93] = 125 :: (rest ++ [93]) := rfl
    rw [List.append_assoc, hbehind]
    exact jsonMatch_neutral (Or.inl rfl) (neutral_object hbrackets f) (rest ++ [93])
  rw [List.cons_append] at hmatch ⊢
  rw [indexEntry, if_neg (by decide), if_pos rfl, hmatch, Option.map_some, List.dropLast_concat]
  simp only [object_path f h, object_size, object_mtime, Option.getD_some, Option.isSome_some,
    entryOf]

theorem dropWhile_between {blank p : Text} (h : blank.all isBetween = true) :
    (blank ++ p).dropWhile isBetween = p.dropWhile isBetween :=
  List.dropWhile_append_of_pos (fun b hb => List.all_eq_true.mp h b hb)

/-- What stands between an object and the text of the other ones. -/
def listGap (rest : List PkgFile) : Text :=
  if rest.isEmpty then [] else ascii ",\n"

theorem fileList_cons (f : PkgFile) (rest : List PkgFile) :
    fileList (f :: rest) = fileObject f ++ (listGap rest ++ fileList rest) := by
  cases rest with
  | nil => simp [fileList, listGap]
  | cons g rest =>
      rw [fileList, List.append_assoc]
      · rfl
      · intro h
        cases h

theorem listGap_between (rest : List PkgFile) : (listGap rest).all isBetween = true := by
  unfold listGap
  split <;> decide

variable (head : Option (Text -> Nat × Nat -> Nat × Nat)) (base : Text)

/-- The induction is on the files; in front of each there is only white space and commas. -/
theorem scanIndexFrom_files {files : List PkgFile} (h : forall f, f ∈ files -> Char.ofNat 0 ∉ f.path)
    {turns : Nat} (hturns : files.length ≤ turns) {blank : Text}
    (hblank : blank.all isBetween = true) (s : ScanCtx) :
    scanIndexFrom head base turns s (blank ++ (fileList files ++ ascii "\n  ")) =
      files.foldl (fun s f => scanEntry head base s (entryOf f)) s := by
  induction files generalizing turns blank s with
  | nil =>
      cases turns with
      | zero => rfl
      | succ turns =>
          have hend : (blank ++ ([] ++ ascii "\n  ")).dropWhile isBetween = [] := by
            rw [dropWhile_between hblank]
            decide
          unfold scanIndexFrom
          rw [fileList, hend, indexEntry]
          rfl
  | cons f rest ih =>
      cases turns with
      | zero => exact absurd hturns (by simp)
      | succ turns =>
          have hspaces : (ascii "    ").all isBetween = true := by decide
          have hobject : (blank ++ (fileList (f :: rest) ++ ascii "\n  ")).dropWhile isBetween =
              123 :: objectText f ++ 125 :: (listGap rest ++ (fileList rest ++ ascii "\n  ")) := by
            rw [dropWhile_between hblank, fileList_cons, fileObject_eq]
            simp only [List.append_assoc]
            rw [dropWhile_between hspaces, List.cons_append, List.dropWhile_cons_of_neg (by decide)]
            simp
          unfold scanIndexFrom
          rw [hobject, indexEntry_object (h f List.mem_cons_self)]
          exact ih (fun g hg => h g (List.mem_cons_of_mem f hg)) (by simpa using hturns)
            (listGap_between rest) _

theorem neutral_fileList (files : List PkgFile) : Neutral 91 93 (fileList files) := by
  have hbrackets : IsBrackets 91 93 := Or.inr ⟨rfl, rfl⟩
  induction files with
  | nil => exact Neutral.nil
  | cons f rest ih =>
      have hgap : Neutral 91 93 (listGap rest) := by
        apply Neutral.plain
        unfold listGap
        split <;> decide
      have hfront : Neutral 91 93 (ascii "    ") := Neutral.plain (by decide)
      have hopen : Neutral 91 93 [123] := Neutral.plain (by decide)
      have hclose : Neutral 91 93 [125] := Neutral.plain (by decide)
      have hobject : Neutral 91 93 (fileObject f) := by
        rw [fileObject_eq]
        exact (hfront.append (hopen.append (neutral_object hbrackets f))).append hclose
      rw [fileList_cons]
      exact hobject.append (hgap.append ih)

theorem length_le_fileList (files : List PkgFile) : files.length ≤ (fileList files).length := by
  induction files with
  | nil => exact Nat.le_refl 0
  | cons f rest ih =>
      rw [fileList_cons, fileObject_eq]
      simp only [List.length_append, List.length_cons]
      omega

/-- The text between the brackets of the list. -/
def listText (files : List PkgFile) : Text :=
  if files.isEmpty then [] else ascii "\n" ++ fileList files ++ ascii "\n  "

theorem indexText_list (files : List PkgFile) :
    jsonValue "files" (indexText files) = some (91 :: listText files ++ 93 :: ascii "\n\x7d\n") := by
  have hopen : ascii "\x7b\n  \"version\": 1,\n  \"files\": [" =
      (123 :: ascii "\n  ") ++ (quoted "version" ++ 58 :: 32 ::
        (ascii "1,\n  " ++ (quoted "files" ++ 58 :: 32 :: [91]))) := by decide
  have hclose : ascii "]\n\x7d\n" = 93 :: ascii "\n\x7d\n" := by decide
  have hshape : indexText files = (123 :: ascii "\n  ") ++ (quoted "version" ++ 58 :: 32 ::
      (ascii "1,\n  " ++ (quoted "files" ++ 58 :: 32 ::
        91 :: (listText files ++ 93 :: ascii "\n\x7d\n")))) := by
    rw [indexText, hopen, hclose, listText]
    simp only [List.append_assoc, List.cons_append, List.nil_append]
  rw [hshape, jsonValue_noQuote (by decide),
    jsonValue_otherKey (by decide) (by decide) (by decide) (by decide) (by decide),
    jsonValue_noQuote (by decide)]
  exact jsonValue_found (by decide)

theorem neutral_listText (files : List PkgFile) : Neutral 91 93 (listText files) := by
  unfold listText
  split
  · exact Neutral.nil
  · have hopen : Neutral 91 93 (ascii "\n") := Neutral.plain (by decide)
    have hclose : Neutral 91 93 (ascii "\n  ") := Neutral.plain (by decide)
    exact (hopen.append (neutral_fileList files)).append hclose

/-- The document is read as its files, one after the other. -/
theorem scanIndexJson_indexText {files : List PkgFile}
    (h : forall f, f ∈ files -> Char.ofNat 0 ∉ f.path) (s : ScanCtx) :
    scanIndexJson head base s (indexText files) =
      some (files.foldl (fun s f => scanEntry head base s (entryOf f)) s) := by
  have hmatch : jsonMatch (91 :: (listText files ++ 93 :: ascii "\n\x7d\n")) =
      some (91 :: listText files, ascii "\n\x7d\n") :=
    jsonMatch_neutral (Or.inr rfl) (neutral_listText files) _
  rw [scanIndexJson, indexText_list]
  change (jsonMatch (91 :: (listText files ++ 93 :: ascii "\n\x7d\n"))).map
    (fun parts => scanIndexFrom head base parts.1.length s (parts.1.drop 1)) = _
  rw [hmatch, Option.map_some]
  change some (scanIndexFrom head base (listText files).length.succ s (listText files)) = _
  unfold listText
  split
  · rename_i hempty
    rw [List.isEmpty_iff.mp hempty]
    rfl
  · have hlong := length_le_fileList files
    rw [List.append_assoc]
    congr 1
    refine scanIndexFrom_files head base h ?_ (by decide) s
    simp only [List.length_append]
    omega

end Http
end PkgManager
