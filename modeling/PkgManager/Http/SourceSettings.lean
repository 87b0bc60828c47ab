import PkgManager.Http.SourceSurvives

/-!
# The settings of the sources

The file of the sources is short enough to be read whole.  The sources of a new process are then
those that were stored exactly when each of them survives.
-/

namespace PkgManager
namespace Http

open CString
open PkgManager.Parser

/-!
# The length of the file
-/

/-- A text without a zero that is at most this long. -/
structure Plain (n : Nat) (text : Text) : Prop where
  zero : ZeroFree text
  length : text.length ≤ n

theorem Plain.append {m n : Nat} {a b : Text} (ha : Plain m a) (hb : Plain n b) :
    Plain (m + n) (a ++ b) where
  zero := zeroFree_append ha.zero hb.zero
  length := by
    rw [List.length_append]
    exact Nat.add_le_add ha.length hb.length

theorem escapePiece_zeroFree {c : UInt8} (hc : c ≠ 0) : ZeroFree (escapePiece c) := by
  have hall : forall n : Fin 32, lowerHex (n.val / 16) ≠ 0 ∧ lowerHex (n.val % 16) ≠ 0 := by
    decide
  unfold escapePiece
  split_ifs with hmark hfeed hreturn htab hsmall
  · rintro b hb rfl
    rcases List.mem_cons.mp hb with hback | hb
    · cases hback
    · exact hc (List.mem_singleton.mp hb).symm
  · exact zeroFree_of_all rfl
  · exact zeroFree_of_all rfl
  · exact zeroFree_of_all rfl
  · have hhex := hall ⟨c.toNat, hsmall⟩
    rintro b hb rfl
    simp only [List.mem_cons, List.not_mem_nil, or_false] at hb
    rcases hb with hb | hb | hb | hb | hb | hb
    · cases hb
    · cases hb
    · cases hb
    · cases hb
    · exact hhex.1 hb.symm
    · exact hhex.2 hb.symm
  · rintro b hb rfl
    exact hc (List.mem_singleton.mp hb).symm

theorem keptFrom_length {dstSz d : Nat} (hd : d < dstSz) (src : Text) :
    d + ((keptFrom dstSz d src).flatMap escapePiece).length < dstSz := by
  induction src generalizing d with
  | nil => exact hd
  | cons c rest ih =>
      unfold keptFrom
      split
      · exact hd
      · rename_i hgo
        rw [not_or, not_le] at hgo
        have hpiece := escapePiece_length c
        have hrest := ih (d := d + (escapePiece c).length) (by omega)
        rw [List.flatMap_cons, List.length_append]
        omega

theorem plain_jsonEscape {n : Nat} {src : Text} (hz : ZeroFree src) :
    Plain n (jsonEscape (n + 1) src) where
  zero := by
    intro b hb
    rcases List.mem_flatMap.mp hb with ⟨c, hc, hpiece⟩
    exact escapePiece_zeroFree (zeroFree_keptText hz c hc) b hpiece
  length := by
    have hlength := keptFrom_length (Nat.succ_pos n) src
    rw [Nat.zero_add] at hlength
    exact Nat.le_of_lt_succ hlength

theorem plain_field (key : String) (k : Nat) {n : Nat} {value : Text} (hkey : Plain k (quoted key))
    (hvalue : Plain n value) : Plain (k + (3 + n + 3)) (stringField key value) := by
  have hopen : Plain 3 [58, 32, quote] := ⟨zeroFree_of_all rfl, Nat.le_refl 3⟩
  have hclose : Plain 3 [quote, 44, 32] := ⟨zeroFree_of_all rfl, Nat.le_refl 3⟩
  exact hkey.append ((hopen.append hvalue).append hclose)

theorem plain_source {c : SourceConfig} (hc : IsConfig c) : Plain 2166 (sourceText c) := by
  have hid := plain_field "id" 4 ⟨zeroFree_of_all rfl, by decide⟩
    (plain_jsonEscape (n := 79) hc.id.1)
  have hlabel := plain_field "label" 7 ⟨zeroFree_of_all rfl, by decide⟩
    (plain_jsonEscape (n := 159) hc.label.1)
  have hurl := plain_field "url" 5 ⟨zeroFree_of_all rfl, by decide⟩
    (plain_jsonEscape (n := 1099) hc.url.1)
  have hname := plain_field "username" 10 ⟨zeroFree_of_all rfl, by decide⟩
    (plain_jsonEscape (n := 159) hc.username.1)
  have hword := plain_field "password" 10 ⟨zeroFree_of_all rfl, by decide⟩
    (plain_jsonEscape (n := 299) hc.password.1)
  have hmode := plain_field "tls_mode" 10 ⟨zeroFree_of_all rfl, by decide⟩
    (plain_jsonEscape (n := 39) hc.tlsMode.1)
  have hpin := plain_field "tls_pin" 9 ⟨zeroFree_of_all rfl, by decide⟩
    (plain_jsonEscape (n := 219) hc.tlsPin.1)
  have henabled : Plain 16 (enabledText c.enabled) := by
    cases c.enabled with
    | false => exact ⟨zeroFree_of_all rfl, by decide⟩
    | true => exact ⟨zeroFree_of_all rfl, by decide⟩
  have hnil : Plain 0 [] := ⟨fun b hb => (nomatch hb), Nat.le_refl 0⟩
  exact (hid.append (hlabel.append (hurl.append (hname.append (hword.append
    (hmode.append (hpin.append hnil))))))).append henabled

theorem plain_sourceLines {sources : List SourceConfig}
    (hconfig : forall c, c ∈ sources -> IsConfig c) :
    Plain (2174 * sources.length) (sourceLines sources) := by
  induction sources with
  | nil => exact ⟨fun b hb => (nomatch hb), Nat.le_refl 0⟩
  | cons c rest ih =>
      have hgap : Plain 2 (sourceGap rest) := by
        unfold sourceGap
        split
        · exact ⟨zeroFree_of_all rfl, by decide⟩
        · exact ⟨zeroFree_of_all rfl, by decide⟩
      have hfront : Plain 4 (ascii "    ") := ⟨zeroFree_of_all rfl, by decide⟩
      have hopen : Plain 1 [123] := ⟨zeroFree_of_all rfl, by decide⟩
      have hclose : Plain 1 [125] := ⟨zeroFree_of_all rfl, by decide⟩
      have hline := hfront.append (hopen.append ((plain_source (hconfig c List.mem_cons_self)).append
        (hclose.append (hgap.append (ih (fun d hd => hconfig d (List.mem_cons_of_mem c hd)))))))
      rw [sourceLines_cons, List.length_cons, Nat.mul_succ, Nat.add_comm]
      refine ⟨hline.zero, hline.length.trans (Nat.le_of_eq ?_)⟩
      omega

/-- The file is shorter than what is read of it. -/
theorem plain_sourcesText {sources : List SourceConfig}
    (hconfig : forall c, c ∈ sources -> IsConfig c) (hroom : sources.length ≤ maxHttpSources) :
    Plain 65535 (sourcesText sources) := by
  have hopen : Plain 33 (ascii "\x7b\n  \"version\": 1,\n  \"sources\": [\n") :=
    ⟨zeroFree_of_all rfl, by decide⟩
  have hclose : Plain 6 (ascii "  ]\n\x7d\n") := ⟨zeroFree_of_all rfl, by decide⟩
  have hall := (hopen.append (plain_sourceLines hconfig)).append hclose
  refine ⟨hall.zero, hall.length.trans ?_⟩
  unfold maxHttpSources at hroom
  omega

/-!
# Restarts
-/

/-- Nothing is changed or dropped exactly when each element stays as it is. -/
theorem filterMap_fixed_iff {α : Type} {f : α -> Option α} {elements : List α} :
    elements.filterMap f = elements ↔ forall x, x ∈ elements -> f x = some x := by
  induction elements with
  | nil => exact iff_of_true rfl (fun x hx => by cases hx)
  | cons x rest ih =>
      rw [List.filterMap_cons, List.forall_mem_cons, <- ih]
      cases hx : f x with
      | none =>
          constructor
          · intro h
            have hlength := List.length_filterMap_le f rest
            dsimp only at h
            rw [h, List.length_cons] at hlength
            omega
          · rintro ⟨hnone, _⟩
            cases hnone
      | some y =>
          dsimp only
          rw [List.cons.injEq, Option.some.injEq]

section
variable {mzCrc32 : Text -> Nat}

theorem url_ne_nil {c : SourceConfig} (h : IsCleaned c) : c.url ≠ [] := by
  rcases h.parses with ⟨u, hu⟩
  intro hnil
  rw [hnil] at hu
  cases hu

/-- A new process has the sources of the file as they are after they were cut and cleaned. -/
theorem sourcesLoadLocked_text {s : SourceStore} {sources : List SourceConfig}
    (hfile : s.file = some (sourcesText sources)) (hcleaned : forall c, c ∈ sources -> IsCleaned c)
    (hroom : sources.length ≤ maxHttpSources) :
    (sourcesLoadLocked mzCrc32 s).sources =
      sources.filterMap (fun c => httpSourceSanitize mzCrc32 (cutSource c)) := by
  have hplain := plain_sourcesText (fun c hc => (hcleaned c hc).config) hroom
  have hread : httpSourcesParseJson (cString ((sourcesText sources).take 65535)) maxHttpSources =
      sources.map cutSource := by
    rw [List.take_of_length_le hplain.length, cString_of_zeroFree hplain.zero]
    exact httpSourcesParseJson_text
      (fun c hc => ⟨(hcleaned c hc).config, url_ne_nil (hcleaned c hc)⟩) hroom
  unfold sourcesLoadLocked
  rw [hfile]
  dsimp only
  rw [hread, List.filterMap_map]
  rfl

/-- The sources that are given out after they were set. -/
def storedSources (mzCrc32 : Text -> Nat) (list : List SourceConfig) : List SourceConfig :=
  (list.take maxHttpSources).filterMap (httpSourceSanitize mzCrc32)

theorem storedSources_length (list : List SourceConfig) :
    (storedSources mzCrc32 list).length ≤ maxHttpSources :=
  (List.length_filterMap_le _ _).trans (List.length_take_le _ _)

theorem httpSourcesGet_set (s : SourceStore) (list : List SourceConfig) :
    (httpSourcesGet mzCrc32 (httpSourcesSet mzCrc32 s list) maxHttpSources).1 =
      storedSources mzCrc32 list :=
  List.take_of_length_le (storedSources_length list)

theorem restarted_set (hcrc : forall text, mzCrc32 text < 2 ^ 32) (s : SourceStore)
    {list : List SourceConfig} (hlist : forall c, c ∈ list -> IsConfig c) :
    (sourcesLoadLocked mzCrc32 (httpSourcesSet mzCrc32 s list).restarted).sources =
      (storedSources mzCrc32 list).filterMap
        (fun c => httpSourceSanitize mzCrc32 (cutSource c)) := by
  apply sourcesLoadLocked_text rfl
  · intro c' hc'
    rcases List.mem_filterMap.mp hc' with ⟨c, hc, hclean⟩
    exact isCleaned_sanitized hcrc (hlist c (List.mem_of_mem_take hc)) hclean
  · exact storedSources_length list

/-- The settings survive a restart exactly when every source that was accepted does. -/
theorem httpSources_restart_iff (hcrc : forall text, mzCrc32 text < 2 ^ 32) (s : SourceStore)
    {list : List SourceConfig} (hlist : forall c, c ∈ list -> IsConfig c) :
    (sourcesLoadLocked mzCrc32 (httpSourcesSet mzCrc32 s list).restarted).sources =
        (httpSourcesGet mzCrc32 (httpSourcesSet mzCrc32 s list) maxHttpSources).1 ↔
      forall c, c ∈ list.take maxHttpSources -> httpSourceSanitize mzCrc32 c ≠ none ->
        Survives c := by
  rw [restarted_set hcrc s hlist, httpSourcesGet_set, filterMap_fixed_iff]
  constructor
  · intro h c hc haccepted
    rcases Option.ne_none_iff_exists'.mp haccepted with ⟨c', hc'⟩
    have hagain := h c' (List.mem_filterMap.mpr ⟨c, hc, hc'⟩)
    exact (readsAgain_iff hcrc (hlist c (List.mem_of_mem_take hc)) hc').mp hagain
  · intro h c' hc'
    rcases List.mem_filterMap.mp hc' with ⟨c, hc, hclean⟩
    have haccepted : httpSourceSanitize mzCrc32 c ≠ none := by
      rw [hclean]
      exact Option.some_ne_none c'
    exact (readsAgain_iff hcrc (hlist c (List.mem_of_mem_take hc)) hclean).mpr (h c hc haccepted)

end

/-- A source that a user would set. -/
def folderSource : SourceConfig where
  enabled := true
  id := ascii "nas"
  label := ascii "Games"
  url := ascii "http://nas/games/"
  username := ascii "me"
  password := ascii "a\"b"
  tlsMode := ascii "verify"
  tlsPin := []

theorem isConfig_folder : IsConfig folderSource := by
  constructor <;> exact ⟨zeroFree_of_all rfl, by decide⟩

theorem survives_folder : Survives folderSource := by
  constructor
  · exact fits_of_short (by decide)
  · exact Or.inl (fits_of_short (by decide))
  · exact fun _ => fits_of_short (by decide)
  · exact fun hlabel => absurd hlabel (by decide)
  · exact fits_of_short (by decide)
  · exact fits_of_short (by decide)
  · exact fits_of_short (by decide)

theorem httpSources_restart_nas :
    (sourcesLoadLocked (fun _ => 0)
        (httpSourcesSet (fun _ => 0) ⟨[], true, none⟩ [folderSource]).restarted).sources =
      (httpSourcesGet (fun _ => 0)
        (httpSourcesSet (fun _ => 0) ⟨[], true, none⟩ [folderSource]) maxHttpSources).1 :=
  (httpSources_restart_iff (fun _ => Nat.two_pow_pos 32) ⟨[], true, none⟩ (by
    intro c hc
    rw [List.mem_singleton.mp hc]
    exact isConfig_folder)).mpr (by
    intro c hc _
    rw [List.mem_singleton.mp (List.mem_of_mem_take hc)]
    exact survives_folder)

/-- A source without a label, whose address has a blank where the label that is made of it ends. -/
def blankSource : SourceConfig where
  enabled := true
  id := ascii "nas"
  label := []
  url := ascii "http://nas/" ++ List.replicate 38 97 ++ ascii " b/"
  username := []
  password := []
  tlsMode := ascii "verify"
  tlsPin := []

theorem isConfig_blank : IsConfig blankSource := by
  constructor <;> exact ⟨zeroFree_of_all rfl, by decide⟩

theorem not_survives_blank : ¬ Survives blankSource := by
  intro h
  have hlabel : (httpUrlParse (cleanUrl blankSource.url)).map (sourceLabel []) =
      some (ascii "nas/" ++ List.replicate 38 97 ++ ascii " ") := by decide
  rcases Option.map_eq_some_iff.mp hlabel with ⟨u, hu, hmade⟩
  have hstays := h.made rfl u hu
  rw [hmade] at hstays
  rcases hstays with htrim | hgone
  · exact absurd htrim.2 (by decide)
  · exact absurd hgone (by decide)

/-- The label loses its blank. -/
theorem httpSources_not_restored :
    ¬ forall (mzCrc32 : Text -> Nat) (s : SourceStore) (list : List SourceConfig),
      (forall text, mzCrc32 text < 2 ^ 32) -> (forall c, c ∈ list -> IsConfig c) ->
        (sourcesLoadLocked mzCrc32 (httpSourcesSet mzCrc32 s list).restarted).sources =
          (httpSourcesGet mzCrc32 (httpSourcesSet mzCrc32 s list) maxHttpSources).1 := by
  intro h
  have hcrc : forall text : Text, (fun _ : Text => 0) text < 2 ^ 32 := fun _ => Nat.two_pow_pos 32
  have hlist : forall c, c ∈ [blankSource] -> IsConfig c := by
    intro c hc
    rw [List.mem_singleton.mp hc]
    exact isConfig_blank
  have hsame := h (fun _ => 0) ⟨[], true, none⟩ [blankSource] hcrc hlist
  rw [restarted_set hcrc _ hlist, httpSourcesGet_set, filterMap_fixed_iff] at hsame
  have hparses : (httpUrlParse (cleanUrl blankSource.url)).isSome = true := by decide
  rcases Option.isSome_iff_exists.mp hparses with ⟨u, hu⟩
  have hclean : httpSourceSanitize (fun _ => 0) blankSource =
      some (cleanedSource (fun _ => 0) blankSource u) :=
    httpSourceSanitize_eq_some.mpr ⟨by decide, by decide, u, hu, rfl⟩
  have hagain := hsame _ (List.mem_filterMap.mpr ⟨blankSource, List.mem_cons_self, hclean⟩)
  exact not_survives_blank ((readsAgain_iff hcrc isConfig_blank hclean).mp hagain)

end Http
end PkgManager
