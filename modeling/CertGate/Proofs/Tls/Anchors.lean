import CertGate.Proofs.Result
import CertGate.Tls.Config
import Mathlib.Data.List.TakeWhile
import Mathlib.Data.String.Basic

namespace CertGate

namespace FileSystem

theorem extension?_eq_some_iff {name extension : String} (hd : '.' ∉ extension.toList) :
    extension? name = some extension ↔ ∃ stem ≠ "", name = stem ++ "." ++ extension := by
  have hdrop (cs : List Char) :
      cs.drop (cs.takeWhile (· ≠ '.')).length = cs.dropWhile (· ≠ '.') := by
    conv_lhs => enter [2]; rw [← List.takeWhile_append_dropWhile (p := (· ≠ '.')) (l := cs)]
    exact List.drop_left
  rw [extension?, hdrop]
  constructor
  · intro h
    have hsplit := List.takeWhile_append_dropWhile (p := (· ≠ '.')) (l := name.toList.reverse)
    generalize hrest : name.toList.reverse.dropWhile (· ≠ '.') = rest at h hsplit
    match rest, h with
    | d :: c :: stem, h =>
      have hdot : d = '.' := by
        have hne : name.toList.reverse.dropWhile (· ≠ '.') ≠ [] := hrest ▸ List.cons_ne_nil _ _
        have hhead := List.head_dropWhile_not (· ≠ '.') hne
        simp only [hrest] at hhead
        exact Decidable.not_not.1 (of_decide_eq_false hhead)
      subst hdot
      refine ⟨String.ofList (c :: stem).reverse, by simp, ?_⟩
      rw [← String.toList_inj, ← List.reverse_inj, ← hsplit]
      obtain rfl := Option.some_inj.1 h
      simp
  · rintro ⟨stem, hs, rfl⟩
    have hrev : (stem ++ "." ++ extension).toList.reverse =
        extension.toList.reverse ++ '.' :: stem.toList.reverse := by simp
    have hall : ∀ c ∈ extension.toList.reverse, decide (c ≠ '.') = true := by
      intro c hc
      exact decide_eq_true fun e ↦ hd (e ▸ List.mem_reverse.1 hc)
    rw [hrev, List.takeWhile_append_of_pos hall, List.dropWhile_append_of_pos hall]
    cases hst : stem.toList.reverse with
    | nil => simp_all
    | cons c cs => simp

theorem exists_join_eq_append (directory : String) :
    ∃ front, ∀ name, join directory name = front ++ name := by
  by_cases h : directory = "" ∨ directory.toList.getLast? = some '/'
  · exact ⟨directory, fun name ↦ if_pos h⟩
  · exact ⟨directory ++ "/", fun name ↦ if_neg h⟩

theorem join_le_join (directory : String) {m n : String} (h : m ≤ n) :
    join directory m ≤ join directory n := by
  obtain ⟨front, hf⟩ := exists_join_eq_append directory
  rw [hf, hf]
  rcases h.lt_or_eq with h | rfl
  · refine le_of_lt ?_
    rw [String.lt_iff_toList_lt, String.toList_append, String.toList_append]
    exact List.Lex.append_left _ h _
  · exact le_rfl

end FileSystem

def DirectoryEntry.IsAnchorFile (e : DirectoryEntry) : Prop :=
  e.isFile = true ∧ ∃ stem ≠ "", e.name = stem ++ ".pem"

theorem DirectoryEntry.isAnchorFile_iff {e : DirectoryEntry} :
    e.IsAnchorFile ↔ (e.isFile && FileSystem.extension? e.name == some "pem") = true := by
  rw [Bool.and_eq_true, beq_iff_eq, FileSystem.extension?_eq_some_iff (by decide), IsAnchorFile]
  simp only [String.append_assoc]
  rfl

instance : DecidablePred DirectoryEntry.IsAnchorFile := fun _ ↦
  decidable_of_iff' _ DirectoryEntry.isAnchorFile_iff

namespace Tls

variable {fs : FileSystem} {directory path : String} {entries entries' : List DirectoryEntry}
  {files files' : List String} {e : Error} {anchors : List EndEntity}

/-- The paths of the files with anchors, in their order. -/
structure Listed (directory : String) (entries : List DirectoryEntry) (files : List String) : Prop where
  pairwise : files.Pairwise (· ≤ ·)
  perm : files.Perm ((entries.filter (·.IsAnchorFile)).map fun e ↦ FileSystem.join directory e.name)

theorem listed_anchorFiles (directory : String) (entries : List DirectoryEntry) :
    Listed directory entries (anchorFiles directory entries) where
  pairwise := by
    refine List.pairwise_map.2 (List.Pairwise.imp (FileSystem.join_le_join directory) ?_)
    have htrans : ∀ l m n : String, decide (l ≤ m) → decide (m ≤ n) → decide (l ≤ n) := by
      simpa using fun l m n ↦ le_trans
    have htotal : ∀ m n : String, (decide (m ≤ n) || decide (n ≤ m)) = true := by
      simpa using le_total
    exact (List.pairwise_mergeSort htrans htotal _).imp of_decide_eq_true
  perm := by
    have hf : (fun e : DirectoryEntry ↦ e.isFile && FileSystem.extension? e.name == some "pem") =
        fun e ↦ decide e.IsAnchorFile := by
      funext e
      rw [Bool.eq_iff_iff, decide_eq_true_iff, DirectoryEntry.isAnchorFile_iff]
    rw [anchorFiles, hf]
    refine ((List.mergeSort_perm _ _).map _).trans ?_
    rw [List.map_map]
    rfl

theorem Listed.unique (h : Listed directory entries files) (h' : Listed directory entries' files')
    (he : (entries'.filter (·.IsAnchorFile)).Perm (entries.filter (·.IsAnchorFile))) : files' = files :=
  List.Perm.eq_of_pairwise (fun _ _ _ _ ↦ le_antisymm) h'.pairwise h.pairwise
    (h'.perm.trans ((he.map _).trans h.perm.symm))

/-- The certificates of a file that can be read, and all of whose sections are well-formed. -/
def Holds (fs : FileSystem) (path : String) (ders : List Bytes) : Prop :=
  ∃ (content : Bytes) (found : List Pem.Section), fs.read path = .ok content ∧
    Pem.sections content = found.map .ok ∧
    ders = (found.filter (·.kind = .certificate)).map (·.content)

def Provides (fs : FileSystem) (path : String) (anchors : List EndEntity) : Prop :=
  ∃ ders, Holds fs path ders ∧ ders ≠ [] ∧
    List.Forall₂ (fun der anchor ↦ EndEntity.ofAuthority? der = some anchor) ders anchors

def FirstFault (fault : Pem.Fault) (sections : List (Except Pem.Fault Pem.Section)) : Prop :=
  ∃ before after, sections = before ++ .error fault :: after ∧ ∀ s ∈ before, ∃ found, s = .ok found

/-- What may be wrong with a file, with what is reported. -/
inductive Defect (fs : FileSystem) (path : String) : Error → Prop
  | unreadable {reason : String} (h : fs.read path = .error reason) :
      Defect fs path (.config s!"Cannot read '{path}': {reason}")
  | malformed {content : Bytes} {fault : Pem.Fault} (h : fs.read path = .ok content)
      (hf : FirstFault fault (Pem.sections content)) :
      Defect fs path (.config s!"Failed to parse certs from '{path}': {fault.text}")
  | empty (h : Holds fs path []) : Defect fs path (.config s!"No certificates found in '{path}'")
  | refused {ders : List Bytes} {der : Bytes} (h : Holds fs path ders) (hd : der ∈ ders)
      (hr : EndEntity.ofAuthority? der = none) :
      Defect fs path
        (.config s!"Something went wrong while parsing certificate: {path}: not a certificate")

theorem mapM_sections_eq_ok_iff {content : Bytes} {found : List Pem.Section} :
    (Pem.sections content).mapM id = .ok found ↔ Pem.sections content = found.map .ok := by
  rw [mapM_eq_ok_iff, ← List.forall₂_eq_eq_eq, List.forall₂_map_right_iff]
  rfl

theorem certificates_eq_ok_iff {content : Bytes} {ders : List Bytes} :
    Pem.certificates content = .ok ders ↔ ∃ found : List Pem.Section,
      Pem.sections content = found.map .ok ∧
        ders = (found.filter (·.kind = .certificate)).map (·.content) := by
  simp only [← mapM_sections_eq_ok_iff]
  rw [Pem.certificates]
  cases (Pem.sections content).mapM id with
  | error fault => simp [bind, Except.bind]
  | ok found => simp [bind, Except.bind, pure, Except.pure, beq_eq_decide, eq_comm]

theorem certificates_eq_error_iff {content : Bytes} {fault : Pem.Fault} :
    Pem.certificates content = .error fault ↔ FirstFault fault (Pem.sections content) := by
  have hm : Pem.certificates content = .error fault ↔
      (Pem.sections content).mapM id = .error fault := by
    rw [Pem.certificates]
    cases (Pem.sections content).mapM id <;> simp [bind, Except.bind, pure, Except.pure]
  rw [hm, mapM_eq_error_iff, FirstFault]
  constructor
  · rintro ⟨before, s, after, hs, hb, rfl⟩
    exact ⟨before, after, hs, hb⟩
  · rintro ⟨before, after, hs, hb⟩
    exact ⟨before, _, after, hs, hb, rfl⟩

theorem holds_iff {ders : List Bytes} :
    Holds fs path ders ↔ ∃ content, fs.read path = .ok content ∧ Pem.certificates content = .ok ders := by
  simp only [Holds, certificates_eq_ok_iff, exists_and_left]

theorem loadCertificates_eq_ok_iff {ders : List Bytes} :
    loadCertificates fs path = .ok ders ↔ Holds fs path ders ∧ ders ≠ [] := by
  rw [loadCertificates, readFile, holds_iff]
  cases fs.read path with
  | error reason => simp
  | ok content =>
    cases hc : Pem.certificates content with
    | error fault => simp [hc]
    | ok found => cases found <;> cases ders <;> simp [hc]

def anchorOf (path : String) (der : Bytes) : Result EndEntity :=
  match EndEntity.ofAuthority? der with
  | some anchor => pure anchor
  | none => throw (.config s!"Something went wrong while parsing certificate: {path}: not a certificate")

theorem anchorOf_eq_ok_iff {der : Bytes} {anchor : EndEntity} :
    anchorOf path der = .ok anchor ↔ EndEntity.ofAuthority? der = some anchor := by
  rw [anchorOf]
  cases EndEntity.ofAuthority? der <;> simp

theorem anchorOf_eq_error_iff {der : Bytes} :
    anchorOf path der = .error e ↔ EndEntity.ofAuthority? der = none ∧
      e = .config s!"Something went wrong while parsing certificate: {path}: not a certificate" := by
  rw [anchorOf]
  cases EndEntity.ofAuthority? der <;> simp [eq_comm]

theorem loadAnchorFile_eq :
    loadAnchorFile fs path = loadCertificates fs path >>= (·.mapM (anchorOf path)) := rfl

theorem loadAnchorFile_eq_ok_iff : loadAnchorFile fs path = .ok anchors ↔ Provides fs path anchors := by
  rw [loadAnchorFile_eq, Result.bind_eq_ok_iff]
  simp only [loadCertificates_eq_ok_iff, mapM_eq_ok_iff, anchorOf_eq_ok_iff, and_assoc, Provides]

theorem loadCertificates_eq_error_iff : loadCertificates fs path = .error e ↔
    (∃ reason, fs.read path = .error reason ∧ e = .config s!"Cannot read '{path}': {reason}") ∨
    (∃ content fault, fs.read path = .ok content ∧ FirstFault fault (Pem.sections content) ∧
      e = .config s!"Failed to parse certs from '{path}': {fault.text}") ∨
    Holds fs path [] ∧ e = .config s!"No certificates found in '{path}'" := by
  rw [loadCertificates, readFile, holds_iff]
  simp only [← certificates_eq_error_iff]
  cases fs.read path with
  | error reason => simp [eq_comm]
  | ok content =>
    cases hc : Pem.certificates content with
    | error fault => simp [hc, eq_comm]
    | ok found => cases found <;> simp [hc, eq_comm]

theorem loadAnchorFile_eq_error_iff : loadAnchorFile fs path = .error e ↔ Defect fs path e := by
  rw [loadAnchorFile_eq, Result.bind_eq_error_iff]
  constructor
  · rintro (h | ⟨ders, hl, h⟩)
    · rcases loadCertificates_eq_error_iff.1 h with
        ⟨reason, hr, rfl⟩ | ⟨content, fault, hr, hf, rfl⟩ | ⟨hh, rfl⟩
      · exact .unreadable hr
      · exact .malformed hr hf
      · exact .empty hh
    · obtain ⟨before, der, after, rfl, -, hd⟩ := mapM_eq_error_iff.1 h
      obtain ⟨ha, rfl⟩ := anchorOf_eq_error_iff.1 hd
      exact .refused (loadCertificates_eq_ok_iff.1 hl).1 (by simp) ha
  · rintro (hr | ⟨hr, hf⟩ | hh | ⟨hh, hd, ha⟩)
    · exact .inl (loadCertificates_eq_error_iff.2 (.inl ⟨_, hr, rfl⟩))
    · exact .inl (loadCertificates_eq_error_iff.2 (.inr (.inl ⟨_, _, hr, hf, rfl⟩)))
    · exact .inl (loadCertificates_eq_error_iff.2 (.inr (.inr ⟨hh, rfl⟩)))
    · refine .inr ⟨_, loadCertificates_eq_ok_iff.2 ⟨hh, List.ne_nil_of_mem hd⟩, ?_⟩
      obtain ⟨e, he⟩ := exists_mapM_eq_error (f := anchorOf path) hd (anchorOf_eq_error_iff.2 ⟨ha, rfl⟩)
      obtain ⟨-, der', -, -, -, hd'⟩ := mapM_eq_error_iff.1 he
      obtain ⟨-, rfl⟩ := anchorOf_eq_error_iff.1 hd'
      exact he

theorem ne_nil_of_provides (h : Provides fs path anchors) : anchors ≠ [] := by
  obtain ⟨ders, -, hne, ha⟩ := h
  rintro rfl
  exact hne (List.forall₂_nil_right_iff.1 ha)

theorem flatten_eq_nil_iff {lists : List (List EndEntity)} (h : List.Forall₂ (Provides fs) files lists) :
    lists.flatten = [] ↔ files = [] := by
  cases h with
  | nil => simp
  | cons ha h => simp [ne_nil_of_provides ha]

def noAnchors (directory : String) : Error := .config s!"No CA certificates found in '{directory}'"

theorem loadAnchors_eq (h : fs.list directory = .ok entries) (hf : Listed directory entries files) :
    loadAnchors fs directory = files.mapM (loadAnchorFile fs) >>= fun lists ↦
      if lists.flatten = [] then throw (noAnchors directory) else pure lists.flatten := by
  rw [loadAnchors, h, (listed_anchorFiles directory entries).unique hf (.refl _)]
  rfl

/-- All certificates of all files, in the order of paths, or what is wrong with the first file that has a
defect. Nothing else in the directory counts, and nor does the order in which it is listed. -/
theorem loadAnchors_all_or_nothing (h : fs.list directory = .ok entries)
    (hf : Listed directory entries files) :
    (∀ anchors, loadAnchors fs directory = .ok anchors ↔ files ≠ [] ∧
      ∃ lists, List.Forall₂ (Provides fs) files lists ∧ anchors = lists.flatten) ∧
    (∀ e, loadAnchors fs directory = .error e ↔ files = [] ∧ e = noAnchors directory ∨
      ∃ before path after, files = before ++ path :: after ∧
        (∀ p ∈ before, ∃ anchors, Provides fs p anchors) ∧ Defect fs path e) ∧
    ∀ (fs' : FileSystem) (entries' : List DirectoryEntry), fs'.list directory = .ok entries' →
      (entries'.filter (·.IsAnchorFile)).Perm (entries.filter (·.IsAnchorFile)) →
      (∀ path ∈ files, fs'.read path = fs.read path) →
      loadAnchors fs' directory = loadAnchors fs directory := by
  have hok (lists : List (List EndEntity)) :
      files.mapM (loadAnchorFile fs) = .ok lists ↔ List.Forall₂ (Provides fs) files lists := by
    simp only [mapM_eq_ok_iff, loadAnchorFile_eq_ok_iff]
  refine ⟨fun anchors ↦ ?_, fun e ↦ ?_, fun fs' entries' h' hp hr ↦ ?_⟩
  · rw [loadAnchors_eq h hf, Result.bind_eq_ok_iff, ← exists_and_left]
    refine exists_congr fun lists ↦ ?_
    rw [hok, and_left_comm]
    refine and_congr_right fun hl ↦ ?_
    rw [ne_eq, ← flatten_eq_nil_iff hl]
    split <;> simp_all [eq_comm]
  · rw [loadAnchors_eq h hf, Result.bind_eq_error_iff, mapM_eq_error_iff, or_comm]
    refine or_congr ⟨?_, ?_⟩ (by simp only [loadAnchorFile_eq_ok_iff, loadAnchorFile_eq_error_iff])
    · rintro ⟨lists, hl, he⟩
      by_cases hn : lists.flatten = []
      · rw [if_pos hn] at he
        cases he
        exact ⟨(flatten_eq_nil_iff ((hok lists).1 hl)).1 hn, rfl⟩
      · rw [if_neg hn] at he
        cases he
    · rintro ⟨rfl, rfl⟩
      exact ⟨[], (hok []).2 .nil, rfl⟩
  · have hread (path : String) (hm : path ∈ files) : loadAnchorFile fs' path = loadAnchorFile fs path := by
      rw [loadAnchorFile, loadCertificates, readFile, hr path hm]
      rfl
    have hf' : Listed directory entries' files := ⟨hf.pairwise, hf.perm.trans (hp.symm.map _)⟩
    rw [loadAnchors_eq h hf, loadAnchors_eq h' hf', mapM_congr hread]

def plainFile : String :=
  "-----BEGIN CERTIFICATE-----\nMBQwDQIBATAAMAAwADAAMAAwAAMBAA==\n-----END CERTIFICATE-----\n"

def plainCertificate : Bytes :=
  [0x30, 20, 0x30, 13, 2, 1, 1, 0x30, 0, 0x30, 0, 0x30, 0, 0x30, 0, 0x30, 0, 0x30, 0, 3, 1, 0]

theorem loadAnchors_all_or_nothing_of_last :
    let entries : List DirectoryEntry :=
      [⟨"z.pem", true⟩, ⟨"README", true⟩, ⟨"a.pem", true⟩, ⟨"old.pem", false⟩]
    let fs : FileSystem := {
      read := fun path ↦ .ok (Utf8.encode (if path = "cas/z.pem" then "none" else plainFile))
      list := fun _ ↦ .ok entries
      isFile := fun _ ↦ true
      isThere := fun _ ↦ true }
    let fs' : FileSystem := { fs with list := fun _ ↦ .ok [⟨"a.pem", true⟩, ⟨"z.pem", true⟩] }
    loadAnchors fs "cas" = .error (.config "No certificates found in 'cas/z.pem'") ∧
      loadAnchors fs' "cas" = loadAnchors fs "cas" := by
  intro entries fs fs'
  have hfilter : entries.filter (·.IsAnchorFile) = [⟨"z.pem", true⟩, ⟨"a.pem", true⟩] := by decide
  have hf : Listed "cas" entries ["cas/a.pem", "cas/z.pem"] :=
    ⟨by decide, by rw [hfilter]; exact .swap _ _ _⟩
  have hlist : fs.list "cas" = .ok entries := rfl
  obtain ⟨-, herror, hsame⟩ := loadAnchors_all_or_nothing hlist hf
  have ha : fs.read "cas/a.pem" = .ok (Utf8.encode plainFile) :=
    congrArg (fun text ↦ Except.ok (Utf8.encode text)) (if_neg (by decide))
  have hz : fs.read "cas/z.pem" = .ok (Utf8.encode "none") :=
    congrArg (fun text ↦ Except.ok (Utf8.encode text)) (if_pos rfl)
  have hs : Pem.sections (Utf8.encode plainFile) = [.ok ⟨.certificate, plainCertificate⟩] := by rfl
  have hgood : Provides fs "cas/a.pem" [⟨[], []⟩] :=
    ⟨[plainCertificate], ⟨_, [⟨.certificate, plainCertificate⟩], ha, hs, rfl⟩, by decide,
      .cons (by decide +kernel) .nil⟩
  have hbad : Defect fs "cas/z.pem" (.config "No certificates found in 'cas/z.pem'") :=
    .empty ⟨_, [], hz, rfl, rfl⟩
  constructor
  · exact (herror _).2 (.inr ⟨["cas/a.pem"], "cas/z.pem", [], rfl, by simpa using ⟨_, hgood⟩, hbad⟩)
  · refine hsame fs' _ rfl ?_ fun _ _ ↦ rfl
    rw [hfilter]
    exact .swap _ _ _

end Tls

end CertGate
