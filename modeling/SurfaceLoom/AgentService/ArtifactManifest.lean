import SurfaceLoom.Lib.Checked
import SurfaceLoom.AgentService.ArtifactStore

/-! # Reading manifests back

The manifest of a put is small enough to be read, and what is read of it at its
own place is the artifact it was written for. -/
namespace SurfaceLoom.Service.ArtifactStore
open SurfaceLoom.Lib SurfaceLoom.Lib.FileStore SurfaceLoom.Lib.JsonText
open SurfaceLoom.Service.Validation SurfaceLoom.Service.StoredRun

/-- A number token for an integer is converted exactly. -/
def Exact (number : NumberText → Option ℚ) : Prop :=
  ∀ n : SafeInteger, number (.ofNat n.1) = some (n.1 : ℚ)

variable {sha256 : Bytes → Sha256} {number : NumberText → Option ℚ} {limit : ByteLimit}

/-! ## The value of a manifest -/

theorem ofList_fromUnits (s : String) : String.ofList (fromUnits (Str.ofString s).units) = s := by
  rw [Str.ofString_units, fromUnits_utf16, String.ofList_toList]

theorem artifactTree_distinct (a : Artifact) : (artifactTree a).Distinct := by
  refine ⟨?_, ?_⟩
  · show [(Str.ofString "artifactId").units, (Str.ofString "runId").units,
      (Str.ofString "name").units, (Str.ofString "mediaType").units,
      (Str.ofString "sizeBytes").units, (Str.ofString "sha256").units].Nodup
    decide
  · exact ⟨trivial, trivial, trivial, trivial, trivial, trivial, trivial⟩

theorem fromJson_artifactTree (hnumber : Exact number) (a : Artifact) :
    fromJson ((artifactTree a).value number) = a.toValue := by
  rw [value_of_distinct number (artifactTree_distinct a)]
  simp only [artifactTree, artifactMembers, text, Tree.plain, Tree.plainMembers, Tree.literalValue, hnumber a.sizeBytes,
    fromJson, fromProperties, ofList_fromUnits]
  rfl

/-! ## Its text -/

theorem text_scalars (s : String) : Scalars (text s).write :=
  quoted_scalars (Str.ofString_text s).1

theorem text_byteLength (s : String) : byteLength (text s).write ≤ 6 * s.utf8ByteSize + 2 := by
  have hlength : byteLength (Str.ofString s).text ≤ 6 * s.utf8ByteSize := (Str.ofString_text s).2
  show byteLength (quoted _ []) ≤ _
  rw [quoted_byteLength]
  omega

theorem size_scalars (n : Nat) : Scalars (Tree.literal (.number (.ofNat n))).write := by
  show Scalars (NumberText.ofNat n).text
  rw [NumberText.ofNat_text]
  exact Scalars.map_code _

theorem artifactTree_write (a : Artifact) : (artifactTree a).write =
    code '{' :: (Tree.writeMembers (artifactMembers a) ++ [code '}']) := rfl

theorem artifactTree_scalars (a : Artifact) : Scalars (artifactTree a).write := by
  have hopen : Scalars [code '{'] := Scalars.map_code ['{']
  have hclose : Scalars [code '}'] := Scalars.map_code ['}']
  have hmembers : Scalars (Tree.writeMembers (artifactMembers a)) := by
    refine writeMembers_scalars ?_
    simp only [artifactMembers, List.forall_mem_cons, List.not_mem_nil, false_implies,
      implies_true, and_true]
    exact ⟨⟨(Str.ofString_text _).1, text_scalars _⟩, ⟨(Str.ofString_text _).1, text_scalars _⟩,
      ⟨(Str.ofString_text _).1, text_scalars _⟩, ⟨(Str.ofString_text _).1, text_scalars _⟩,
      ⟨(Str.ofString_text _).1, size_scalars _⟩, (Str.ofString_text _).1, text_scalars _⟩
  rw [artifactTree_write]
  exact hopen.append (hmembers.append hclose)

/-- The text of a manifest is parsed to the artifact. -/
theorem parseManifest_stringify (hnumber : Exact number) (a : Artifact) :
    parseManifest number (stringify a ++ ['\n']) = .ok a := by
  have hcodes : (stringify a ++ ['\n']).map code = (artifactTree a).write ++ [code '\n'] := by
    rw [List.map_append, stringify, code_chars (artifactTree_scalars a)]
    rfl
  have hspace : ∀ c ∈ [code '\n'], isWhite c = true := by
    intro c hc
    rw [List.mem_singleton.mp hc]
    rfl
  unfold parseManifest
  rw [hcodes, parse_write number _ hspace]
  simp only [fromJson_artifactTree hnumber, parseArtifact_toValue]

/-- Different artifacts have different texts. -/
theorem stringify_inj (hnumber : Exact number) {a b : Artifact} (h : stringify a = stringify b) :
    a = b := by
  have ha := parseManifest_stringify hnumber a
  rw [h, parseManifest_stringify hnumber b] at ha
  exact (Except.ok.inj ha).symm

/-! ## Its size -/

theorem utf8Size_ascii {c : Char} (h : c.toNat < 0x80) : c.utf8Size = 1 :=
  Char.utf8Size_eq_one_iff.mpr (UInt32.le_iff_toNat_le.mpr (Nat.le_of_lt_succ h))

theorem utf8ByteSize_ascii {s : String} (h : ∀ c ∈ s.toList, c.toNat < 0x80) :
    s.utf8ByteSize = s.toList.length := by
  rw [← length_encode]
  generalize s.toList = l at h ⊢
  induction l with
  | nil => rfl
  | cons c rest ih =>
    obtain ⟨hc, hrest⟩ := List.forall_mem_cons.mp h
    have hcons : Utf8.encode (c :: rest) = String.utf8EncodeChar c ++ Utf8.encode rest := rfl
    rw [hcons, List.length_append, String.length_utf8EncodeChar, utf8Size_ascii hc, ih hrest,
      List.length_cons, Nat.add_comm]

theorem hexDigit_bounds {c : Char} (h : hexDigit c = true) :
    48 ≤ c.toNat ∧ c.toNat ≤ 57 ∨ 97 ≤ c.toNat ∧ c.toNat ≤ 102 := by
  simp only [hexDigit, Bool.or_eq_true, Bool.and_eq_true, decide_eq_true_eq, Char.le_def,
    UInt32.le_iff_toNat_le] at h
  exact h

theorem hexDigit_ascii {c : Char} (h : hexDigit c = true) : c.toNat < 0x80 := by
  have := hexDigit_bounds h
  omega

/-- A hexadecimal digit stands for itself. -/
theorem hexDigit_byteLength {c : Char} (h : hexDigit c = true) :
    byteLength (Item.ofChar c).text = 1 := by
  have hbounds := hexDigit_bounds h
  have hcode : code c = c.toNat := rfl
  rcases Item.ofChar_cases c with ⟨e, -, hmeaning⟩ | ⟨a, b, -, -, hcontrol⟩ | ⟨p, hraw, hp⟩
  · have : e.meaning ∈ [0x22, 0x5C, 0x2F, 0x08, 0x0C, 0x0A, 0x0D, 0x09] := by cases e <;> decide
    rw [hmeaning, hcode] at this
    simp only [List.mem_cons, List.not_mem_nil, or_false] at this
    omega
  · omega
  · have htext : (Item.raw p).text = [code c] := by rw [← hp]; rfl
    have hchars : chars [code c] = [c] := congrArg (· :: []) (Char.ofNat_toNat c)
    rw [hraw, htext, byteLength, hchars, Utf8.encode, List.flatMap_singleton,
      String.length_utf8EncodeChar, utf8Size_ascii (hexDigit_ascii h)]

theorem sha256_toList (h : Sha256) : h.1.toList.length = 64 ∧ ∀ c ∈ h.1.toList, hexDigit c = true := by
  simpa [isSha256] using h.2.2

theorem sha256_byteSize (h : Sha256) : h.1.utf8ByteSize = 64 := by
  obtain ⟨hlength, hdigits⟩ := sha256_toList h
  rw [utf8ByteSize_ascii fun c hc => hexDigit_ascii (hdigits c hc), hlength]

theorem createArtifactId_byteSize (runId : RunId) (name mediaType : Text) (digest : Sha256) :
    (createArtifactId sha256 runId name mediaType digest).1.utf8ByteSize = 73 := by
  have hname : "artifact:".utf8ByteSize = 9 := by decide
  show ("artifact:" ++ (hash sha256 _).1).utf8ByteSize = 73
  rw [String.utf8ByteSize_append, sha256_byteSize, hname]

theorem sha256_byteLength (h : Sha256) : byteLength (text h.1).write = 66 := by
  obtain ⟨hlength, hdigits⟩ := sha256_toList h
  have htext : ∀ l : List Char, (∀ c ∈ l, hexDigit c = true) →
      byteLength (Str.text (l.map Item.ofChar)) = l.length := by
    intro l
    induction l with
    | nil => exact fun _ => rfl
    | cons c rest ih =>
      intro hl
      obtain ⟨hc, hrest⟩ := List.forall_mem_cons.mp hl
      show byteLength ((Item.ofChar c).text ++ Str.text (rest.map Item.ofChar)) = _
      rw [byteLength_append, hexDigit_byteLength hc, ih hrest, List.length_cons, Nat.add_comm]
  show byteLength (quoted _ []) = 66
  rw [quoted_byteLength, Str.ofString, htext _ hdigits, hlength]

/-- The tests of a pattern tell what its texts are made of. -/
theorem matchesAll_mem {P : Char → Prop} {tests : List (Char → Bool)} {cs : List Char}
    (h : matchesAll tests cs = true) (htests : ∀ t ∈ tests, ∀ c, t c = true → P c) :
    cs.length = tests.length ∧ ∀ c ∈ cs, P c := by
  simp only [matchesAll, Bool.and_eq_true, decide_eq_true_eq, List.all_eq_true] at h
  obtain ⟨hlength, hall⟩ := h
  refine ⟨hlength, fun c hc => ?_⟩
  obtain ⟨i, hi, rfl⟩ := List.mem_iff_getElem.mp hc
  have hi' : i < tests.length := hlength ▸ hi
  have hmem : (tests[i], cs[i]) ∈ tests.zip cs := by
    refine List.mem_iff_getElem.mpr ⟨i, ?_, List.getElem_zip⟩
    rw [List.length_zip]
    exact Nat.lt_min.mpr ⟨hi', hi⟩
  exact htests _ (List.getElem_mem hi') _ (hall _ hmem)

theorem uuidTests_ascii {t : Char → Bool} (ht : t ∈ uuidTests) {c : Char} (hc : t c = true) :
    c.toNat < 0x80 := by
  have hdash : isChar '-' c = true → c.toNat < 0x80 := by
    intro h
    rw [eq_of_beq h]
    decide
  simp only [uuidTests, List.mem_append, List.mem_replicate, List.mem_singleton] at ht
  rcases ht with (((((((((⟨-, rfl⟩ | rfl) | ⟨-, rfl⟩) | rfl) | rfl) | ⟨-, rfl⟩) | rfl) | rfl) |
    ⟨-, rfl⟩) | rfl) | ⟨-, rfl⟩
  · exact hexDigit_ascii hc
  · exact hdash hc
  · exact hexDigit_ascii hc
  · exact hdash hc
  · simp only [Bool.and_eq_true, decide_eq_true_eq, Char.le_def, UInt32.le_iff_toNat_le] at hc
    exact Nat.lt_of_le_of_lt hc.2 (by decide)
  · exact hexDigit_ascii hc
  · exact hdash hc
  · simp only [Bool.or_eq_true, decide_eq_true_eq] at hc
    rcases hc with ((rfl | rfl) | rfl) | rfl
    all_goals decide
  · exact hexDigit_ascii hc
  · exact hdash hc
  · exact hexDigit_ascii hc

theorem runId_byteSize (r : RunId) : r.1.utf8ByteSize = 40 := by
  have hid := r.2
  simp only [isUuidIdentity, Bool.and_eq_true, List.isPrefixOf_iff_prefix] at hid
  obtain ⟨⟨rest, hrest⟩, htests⟩ := hid
  have hbefore : ("run" ++ ":").toList = ['r', 'u', 'n', ':'] := by decide
  rw [← hrest, List.drop_left] at htests
  obtain ⟨hlength, hascii⟩ := matchesAll_mem htests fun t ht c hc => uuidTests_ascii ht hc
  have hall : ∀ c ∈ r.1.toList, c.toNat < 0x80 := by
    rw [← hrest, hbefore]
    refine List.forall_mem_append.mpr ⟨by simp, hascii⟩
  rw [utf8ByteSize_ascii hall, ← hrest, hbefore, List.length_append, hlength]
  decide

theorem size_byteLength (n : SafeInteger) :
    byteLength (Tree.literal (.number (.ofNat n.1))).write ≤ 16 := by
  have hchars : chars ((toString n.1).toList.map code) = (toString n.1).toList := by
    unfold chars
    rw [List.map_map]
    exact (List.map_congr_left fun c _ => Char.ofNat_toNat c).trans (List.map_id _)
  have hascii : ∀ c ∈ (toString n.1).toList, c.toNat < 0x80 := by
    intro c hc
    have hbounds := Decimal.digit_value (Decimal.isDigit_toString hc)
    have hzero : '0'.toNat = 48 := rfl
    omega
  show byteLength (NumberText.ofNat n.1).text ≤ 16
  rw [NumberText.ofNat_text, byteLength, hchars, length_encode, utf8ByteSize_ascii hascii,
    Decimal.toList_toString]
  exact (Nat.length_toDigits_le_iff (by decide) (by decide)).mpr
    (Nat.lt_of_le_of_lt n.2 (by decide))

/-- The bytes of the members: the names, the values, and four for what stands around them. -/
theorem members_byteLength (p : Put sha256 limit) :
    ((artifactMembers p.artifact).map fun m => byteLength m.1.text + byteLength m.2.write + 4).sum ≤
      4000 := by
  have hkeys : (["artifactId", "runId", "name", "mediaType", "sizeBytes", "sha256"].map fun key =>
      byteLength (Str.ofString key).text) = [10, 5, 4, 9, 9, 6] := by decide
  simp only [List.map_cons, List.map_nil, List.cons.injEq] at hkeys
  obtain ⟨hid, hrun, hname, hmedia, hsize, hsha, -⟩ := hkeys
  have hidSize : p.artifact.artifactId.1.utf8ByteSize = 73 := by
    rw [p.identified]
    exact createArtifactId_byteSize ..
  have hidText := text_byteLength p.artifact.artifactId.1
  have hrunText := text_byteLength p.artifact.runId.1
  have hnameText := text_byteLength p.artifact.name.1
  have hmediaText := text_byteLength p.artifact.mediaType.1
  have hsizeText := size_byteLength p.artifact.sizeBytes
  have hnameSize := p.name
  have hmediaSize := p.mediaType
  rw [hidSize] at hidText
  rw [runId_byteSize] at hrunText
  simp only [artifactMembers, List.map_cons, List.map_nil, List.sum_cons, List.sum_nil, hid, hrun,
    hname, hmedia, hsize, hsha, sha256_byteLength]
  omega

theorem put_byteLength (p : Put sha256 limit) :
    (Utf8.encode (stringify p.artifact ++ ['\n'])).length ≤ 4096 := by
  have hopen : byteLength [code '{'] = 1 := by decide
  have hclose : byteLength [code '}'] = 1 := by decide
  have hmembers := (writeMembers_byteLength _).trans (members_byteLength p)
  rw [encode_append, List.length_append]
  show byteLength (artifactTree p.artifact).write + 1 ≤ 4096
  rw [artifactTree_write, byteLength_cons, byteLength_append, hopen, hclose]
  omega

/-! ## Its place -/

theorem decodeLossy_encode (cs : List Char) : Utf8.decodeLossy (Utf8.encode cs) = cs := by
  rw [Utf8.decodeLossy, Utf8.read_encode, List.map_map]
  exact List.map_id cs

/-- The manifest of a put, read at its place. -/
theorem checkManifest_put (hnumber : Exact number) (p : Put sha256 limit) {expectedId : Option String}
    (hexpected : ∀ id ∈ expectedId, id = p.artifact.artifactId.1) :
    checkManifest sha256 number (manifestName sha256 p.artifact.artifactId.1) expectedId
      (manifestBytes p.artifact) = .ok p.artifact := by
  unfold checkManifest manifestBytes
  simp only [decodeLossy_encode]
  rw [if_neg (Nat.not_lt.mpr (put_byteLength p)), parseManifest_stringify hnumber]
  refine Checked.bind_ok.mpr ⟨p.artifact, rfl, ?_⟩
  rw [if_neg]
  · rfl
  · rintro (hid | hother | hname)
    · exact hid p.identified
    · obtain ⟨id, hmem, hne⟩ := (Option.any_eq_true _ _).mp hother
      rw [decide_eq_true_eq] at hne
      exact hne (hexpected id hmem).symm
    · exact hname rfl

/-- What is read of a manifest says where it is and whose it is. -/
theorem checkManifest_ok {name : String} {expectedId : Option String} {content : Bytes}
    {artifact : Artifact} (h : checkManifest sha256 number name expectedId content = .ok artifact) :
    artifact.artifactId =
        createArtifactId sha256 artifact.runId artifact.name artifact.mediaType artifact.sha256 ∧
      (∀ id ∈ expectedId, artifact.artifactId.1 = id) ∧
        name = manifestName sha256 artifact.artifactId.1 := by
  unfold checkManifest at h
  simp only at h
  split at h
  · cases h
  · obtain ⟨a, -, h⟩ := Checked.bind_ok.mp h
    split at h
    · cases h
    · rename_i hall
      cases h
      rw [not_or, not_or] at hall
      obtain ⟨hid, hexpected, hname⟩ := hall
      refine ⟨not_ne_iff.mp hid, fun id hmem => ?_, not_ne_iff.mp hname⟩
      by_contra hne
      exact hexpected ((Option.any_eq_true _ _).mpr ⟨id, hmem, decide_eq_true hne⟩)

theorem matchesAll_append {ts us : List (Char → Bool)} {cs ds : List Char}
    (ht : matchesAll ts cs = true) (hu : matchesAll us ds = true) :
    matchesAll (ts ++ us) (cs ++ ds) = true := by
  simp only [matchesAll, Bool.and_eq_true, decide_eq_true_eq] at *
  rw [List.length_append, List.length_append, List.zip_append ht.1.symm, List.all_append, ht.2, hu.2,
    ht.1, hu.1]
  exact ⟨rfl, rfl⟩

theorem manifestName_isManifestName (artifactId : String) :
    isManifestName (manifestName sha256 artifactId) = true := by
  obtain ⟨hlength, hdigits⟩ := sha256_toList (hash sha256 artifactId)
  unfold isManifestName manifestName
  rw [String.toList_append]
  refine matchesAll_append ?_ (by decide)
  simp only [matchesAll, List.length_replicate, hlength, decide_true, Bool.true_and,
    List.all_eq_true]
  intro pair hpair
  obtain ⟨htest, hchar⟩ := List.of_mem_zip hpair
  rw [List.eq_of_mem_replicate htest]
  exact hdigits _ hchar

/-- A name that begins with a digest is not that of a temporary file. -/
theorem temporary_ne (target : Place) (uuid : String) (digest : Sha256) (rest directory : String) :
    (⟨directory, digest.1 ++ rest⟩ : Place) ≠ temporary target uuid := by
  intro h
  obtain ⟨hlength, hdigits⟩ := sha256_toList digest
  have hname : digest.1 ++ rest = "." ++ target.name ++ "." ++ uuid ++ ".tmp" :=
    congrArg Place.name h
  have hchars := congrArg String.toList hname
  simp only [String.toList_append] at hchars
  cases hlist : digest.1.toList with
  | nil => simp [hlist] at hlength
  | cons c cs =>
    rw [hlist] at hchars
    have hc : c = '.' := by
      have := congrArg List.head? hchars
      simpa using this
    have hdigit := hdigits c (hlist ▸ List.mem_cons_self)
    rw [hc] at hdigit
    exact absurd hdigit (by decide)

end SurfaceLoom.Service.ArtifactStore
