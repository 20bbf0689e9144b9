import RecordArchive.Proofs.Path

/-! # Paths that need not be text

A file system knows names as bytes. The name of an entry is text, so what spells no text is replaced on
the way, and the names must still lead where they led.

* `Text.Utf8.lossy_bytesOf`: text is not changed.
* `Path.isNormal_lossy`: the name of a file stays the name of a file.
* `Path.rawEntryName?_bytesOf`: on text, paths of bytes are named as paths are.
* `Path.safeNames?_packedName`: **every name that is packed can be unpacked**, and leads along the names
  that it was made of. -/

namespace RecordArchive

namespace Text.Utf8

/-! ## Characters and their bytes -/

/-- The bytes of characters. -/
def encode (text : List Char) : List UInt8 := text.flatMap String.utf8EncodeChar

/-- The bytes of a text are those of its characters. -/
theorem bytesOf_eq_encode (text : String) : bytesOf text = encode text.toList := by
  rw [bytesOf, String.toUTF8_eq_toByteArray, ← String.utf8Encode_toList, List.utf8Encode,
    List.toList_data_toByteArray, encode]

/-- A character without the highest bit is a byte of its own. -/
theorem utf8EncodeChar_of_toNat {c : Char} {byte : UInt8} (hlt : byte < 0x80)
    (hc : c.toNat = byte.toNat) : String.utf8EncodeChar c = [byte] := by
  have hone : c.val.toNat ≤ 0x7F := by
    show c.toNat ≤ 0x7F
    rw [hc]
    exact Nat.le_of_lt_succ hlt
  have hbyte : UInt8.ofNat c.val.toNat = byte := by
    show UInt8.ofNat c.toNat = byte
    rw [hc, UInt8.ofNat_toNat]
  simp only [String.utf8EncodeChar, if_pos hone, hbyte]

/-- A byte without the highest bit is a character of its own. -/
theorem utf8EncodeChar_of_mem_of_lt {c : Char} {byte : UInt8} (h : byte ∈ String.utf8EncodeChar c)
    (hlt : byte < 0x80) : String.utf8EncodeChar c = [byte] ∧ c.toNat = byte.toNat := by
  have hhigh : ∀ value, 128 ≤ value % 256 → byte ≠ UInt8.ofNat value := by
    rintro value hvalue rfl
    rw [UInt8.lt_iff_toNat_lt, UInt8.toNat_ofNat'] at hlt
    exact absurd hlt (Nat.not_lt.mpr hvalue)
  simp only [String.utf8EncodeChar] at h ⊢
  split at h
  next hone =>
    obtain rfl := List.mem_singleton.mp h
    rw [if_pos hone]
    exact ⟨rfl, (UInt8.toNat_ofNat_of_lt' (Nat.lt_of_le_of_lt hone (by decide))).symm⟩
  next =>
  -- every byte of a longer sequence has its highest bit set
  exfalso
  split at h
  next =>
    rcases List.mem_pair.mp h with h | h
    · exact hhigh _ (by omega) h
    · exact hhigh _ (by omega) h
  next =>
  split at h
  next =>
    simp only [List.mem_cons, List.not_mem_nil, or_false] at h
    rcases h with h | h | h
    · exact hhigh _ (by omega) h
    · exact hhigh _ (by omega) h
    · exact hhigh _ (by omega) h
  next =>
    simp only [List.mem_cons, List.not_mem_nil, or_false] at h
    rcases h with h | h | h | h
    · exact hhigh _ (by omega) h
    · exact hhigh _ (by omega) h
    · exact hhigh _ (by omega) h
    · exact hhigh _ (by omega) h

/-- **What starts with a character** starts with its bytes, and nothing else does. -/
theorem firstChar?_eq_some {bytes : List UInt8} {c : Char} :
    firstChar? bytes = some c ↔ String.utf8EncodeChar c <+: bytes := by
  constructor
  · intro h
    obtain ⟨rest, hrest⟩ := ByteArray.exists_of_utf8DecodeChar?_eq_some h
    have hlist := congrArg (fun array => array.data.toList) hrest
    exact ⟨rest.data.toList, by simpa using hlist.symm⟩
  · rintro ⟨rest, rfl⟩
    have harray : (⟨(String.utf8EncodeChar c ++ rest).toArray⟩ : ByteArray)
        = (String.utf8EncodeChar c).toByteArray ++ rest.toByteArray := by
      rw [← List.toByteArray_append]
      ext1
      simp
    rw [firstChar?, harray]
    exact ByteArray.utf8DecodeChar?_utf8EncodeChar_append

/-- A byte string that starts with a character has something in front of what follows it. -/
theorem exists_of_firstChar? {lead : UInt8} {rest : List UInt8} {c : Char}
    (h : firstChar? (lead :: rest) = some c) :
    lead :: rest = String.utf8EncodeChar c ++ rest.drop (c.utf8Size - 1) := by
  obtain ⟨more, hmore⟩ := firstChar?_eq_some.mp h
  have hlength := String.length_utf8EncodeChar c
  have hpos := c.utf8Size_pos
  have hdrop : rest.drop (c.utf8Size - 1) = (lead :: rest).drop c.utf8Size := by
    rw [← Nat.sub_add_cancel hpos, List.drop_succ_cons, Nat.add_sub_cancel]
  rw [hdrop, ← hmore, ← hlength, List.drop_left]

/-! ## Text that need not be spelled -/

/-- Bytes that belong to a character that was read are passed over. -/
theorem lossyFrom_eq_drop (skipped : Nat) (bytes : List UInt8) :
    lossyFrom skipped bytes = lossyFrom 0 (bytes.drop skipped) := by
  induction bytes generalizing skipped with
  | nil => rw [List.drop_nil, lossyFrom, lossyFrom]
  | cons byte rest ih =>
    cases skipped with
    | zero => rfl
    | succ skipped => rw [lossyFrom, ih, List.drop_succ_cons]

/-- A character that is there is read, with the bytes that continue it. -/
theorem lossyFrom_of_some {lead : UInt8} {rest : List UInt8} {c : Char}
    (h : firstChar? (lead :: rest) = some c) :
    lossyFrom 0 (lead :: rest) = c :: lossyFrom (c.utf8Size - 1) rest := by
  rw [lossyFrom, h]

/-- Bytes that are no character are replaced by one that stands for them. -/
theorem lossyFrom_of_none {lead : UInt8} {rest : List UInt8} (h : firstChar? (lead :: rest) = none) :
    lossyFrom 0 (lead :: rest)
      = replacement :: lossyFrom (continuing ((following lead).getD []) rest) rest := by
  rw [lossyFrom, h]

/-- Behind a character the rest is read. -/
theorem lossyFrom_utf8EncodeChar_append (c : Char) (rest : List UInt8) :
    lossyFrom 0 (String.utf8EncodeChar c ++ rest) = c :: lossyFrom 0 rest := by
  obtain ⟨lead, tail, hencode⟩ := List.exists_cons_of_ne_nil (String.utf8EncodeChar_ne_nil (c := c))
  have hfirst : firstChar? (lead :: (tail ++ rest)) = some c :=
    firstChar?_eq_some.mpr ⟨rest, by rw [hencode, List.cons_append]⟩
  have hdrop := exists_of_firstChar? hfirst
  rw [← List.cons_append, ← hencode] at hdrop
  rw [hencode, List.cons_append, lossyFrom_of_some hfirst, lossyFrom_eq_drop,
    ← List.append_cancel_left hdrop]

/-- **Characters are read back** from their bytes. -/
theorem lossyFrom_encode (text : List Char) : lossyFrom 0 (encode text) = text := by
  induction text with
  | nil => rfl
  | cons c text ih => rw [encode, List.flatMap_cons, ← encode, lossyFrom_utf8EncodeChar_append, ih]

example : lossy [0x61, 0xF0, 0x9F, 0xFF] = "a\uFFFD\uFFFD" := by decide

/-- Different characters have different bytes. -/
theorem encode_inj {first second : List Char} : encode first = encode second ↔ first = second := by
  constructor
  · intro h
    rw [← lossyFrom_encode first, h, lossyFrom_encode]
  · exact congrArg encode

/-- **A character without the highest bit** is only read where it stands. -/
theorem mem_of_mem_lossyFrom {byte : UInt8} (hlt : byte < 0x80) {c : Char} (hc : c.toNat = byte.toNat)
    {skipped : Nat} {bytes : List UInt8} (h : c ∈ lossyFrom skipped bytes) : byte ∈ bytes := by
  induction bytes generalizing skipped with
  | nil =>
    rw [lossyFrom] at h
    exact absurd h List.not_mem_nil
  | cons lead rest ih =>
    cases skipped with
    | succ skipped =>
      rw [lossyFrom] at h
      exact List.mem_cons_of_mem _ (ih h)
    | zero =>
      cases hfirst : firstChar? (lead :: rest) with
      | some d =>
        rw [lossyFrom_of_some hfirst] at h
        rcases List.mem_cons.mp h with rfl | h
        · have hfront := firstChar?_eq_some.mp hfirst
          rw [utf8EncodeChar_of_toNat hlt hc] at hfront
          exact hfront.subset (List.mem_singleton_self byte)
        · exact List.mem_cons_of_mem _ (ih h)
      | none =>
        rw [lossyFrom_of_none hfirst] at h
        rcases List.mem_cons.mp h with rfl | h
        · -- a replacement is far above
          have hlarge : replacement.toNat = 0xFFFD := by decide
          have hsmall : byte.toNat < 0x80 := hlt
          omega
        · exact List.mem_cons_of_mem _ (ih h)

/-- A byte string that needs no replacement is that of the text that is read. -/
theorem encode_lossyFrom {skipped : Nat} {bytes : List UInt8}
    (h : replacement ∉ lossyFrom skipped bytes) :
    encode (lossyFrom skipped bytes) = bytes.drop skipped := by
  induction bytes generalizing skipped with
  | nil => rw [lossyFrom, List.drop_nil, encode, List.flatMap_nil]
  | cons lead rest ih =>
    cases skipped with
    | succ skipped =>
      rw [lossyFrom] at h ⊢
      rw [ih h, List.drop_succ_cons]
    | zero =>
      cases hfirst : firstChar? (lead :: rest) with
      | some c =>
        rw [lossyFrom_of_some hfirst, List.mem_cons, not_or] at h
        rw [lossyFrom_of_some hfirst, encode, List.flatMap_cons, ← encode, ih h.2, List.drop_zero]
        exact (exists_of_firstChar? hfirst).symm
      | none =>
        rw [lossyFrom_of_none hfirst] at h
        exact absurd List.mem_cons_self h

end Text.Utf8

namespace Path

open Text.Utf8

/-! ## Names of files -/

/-- What a file system takes for the name of a file: some bytes without a slash, and no dots. -/
structure IsFileName (name : List UInt8) : Prop where
  ne_nil : name ≠ []
  notMem : 0x2F ∉ name
  ne_dot : name ≠ [0x2E]
  ne_dots : name ≠ [0x2E, 0x2E]

/-- **The name of a file** is read as a name that leads to an entry. -/
theorem isNormal_lossy {name : List UInt8} (h : IsFileName name) : IsNormal (lossy name) := by
  have hdots : ∀ dots : List Char, replacement ∉ dots → lossy name = String.ofList dots →
      name = encode dots := by
    intro dots hnone heq
    have hchars : lossyFrom 0 name = dots := String.ofList_injective heq
    rw [← hchars, encode_lossyFrom (hchars ▸ hnone), List.drop_zero]
  refine ⟨fun hempty => ?_, ?_, fun hslash => ?_⟩
  · exact h.ne_nil (hdots [] List.not_mem_nil hempty)
  · rw [FileTree.isName, Bool.and_eq_true, decide_eq_true_eq, decide_eq_true_eq]
    exact ⟨fun hdot => h.ne_dot (hdots ['.'] (by decide) hdot),
      fun hdot => h.ne_dots (hdots ['.', '.'] (by decide) hdot)⟩
  · rw [lossy, String.toList_ofList] at hslash
    exact h.notMem (mem_of_mem_lossyFrom (by decide) (by decide) hslash)

/-- Every name in a path of bytes can be that of a file. -/
theorem isFileName_of_mem_rawNames {path name : List UInt8} (h : name ∈ rawNames path) :
    IsFileName name := by
  obtain ⟨hmem, hname⟩ := List.mem_filter.mp h
  obtain ⟨hne, hdot, hdots⟩ := of_decide_eq_true hname
  exact ⟨hne, notMem_of_mem_splitOn hmem, hdot, hdots⟩

/-! ## Paths of bytes that are text -/

/-- No byte of another character is a slash. -/
theorem slash_notMem_utf8EncodeChar {c : Char} (h : c ≠ '/') : 0x2F ∉ String.utf8EncodeChar c :=
  fun hmem => h (Char.toNat_inj.mp (utf8EncodeChar_of_mem_of_lt hmem (by decide)).2)

/-- What has no separator in it stands in front of the first segment. -/
theorem splitOn_append_of_notMem {separator : UInt8} {front : List UInt8} (h : separator ∉ front)
    (back : List UInt8) : List.splitOn separator (front ++ back)
      = (List.splitOn separator back).modifyHead (front ++ ·) := by
  induction front with
  | nil =>
    obtain ⟨first, others, hsplit⟩ := List.exists_cons_of_ne_nil (List.splitOn_ne_nil separator back)
    rw [List.nil_append, hsplit]
    rfl
  | cons member front ih =>
    rw [List.mem_cons, not_or] at h
    have hmember : ¬ (member == separator) = true := fun heq => h.1 (beq_iff_eq.mp heq).symm
    rw [List.cons_append, List.splitOn_cons_eq_if_modifyHead, if_neg hmember, ih h.2,
      List.modifyHead_modifyHead]
    rfl

/-- Bytes are split at slashes where their text is. -/
theorem splitOn_encode (text : List Char) :
    List.splitOn 0x2F (encode text) = (segments text).map encode := by
  induction text with
  | nil => rfl
  | cons c text ih =>
    obtain ⟨first, others, hsegments⟩ := List.exists_cons_of_ne_nil (segments_ne_nil text)
    have hcons : segments (c :: text) = addChar c (segments text) := rfl
    by_cases hc : c = '/'
    · rw [hc, segments_slash, List.map_cons, ← ih]
      exact List.splitOn_append_cons_self [] (encode text)
    · rw [hcons, hsegments, addChar, if_neg hc, encode, List.flatMap_cons, ← encode,
        splitOn_append_of_notMem (slash_notMem_utf8EncodeChar hc), ih, hsegments]
      rfl

/-- **The names in the bytes of a text** are the normal parts of the text. -/
theorem map_lossy_rawNames_bytesOf (text : String) :
    (rawNames (bytesOf text)).map lossy = normalParts text := by
  have hpart : ∀ segment part : List Char,
      encode segment = encode part ↔ String.ofList segment = String.ofList part :=
    fun segment part => encode_inj.trans String.ofList_inj.symm
  have hempty : ∀ segment, encode segment = [] ↔ String.ofList segment = "" := (hpart · [])
  have hdot : ∀ segment, encode segment = [0x2E] ↔ String.ofList segment = "." := (hpart · ['.'])
  have hdots : ∀ segment, encode segment = [0x2E, 0x2E] ↔ String.ofList segment = ".." :=
    (hpart · ['.', '.'])
  have hlossy : ∀ segment, lossy (encode segment) = String.ofList segment := fun segment => by
    rw [lossy, lossyFrom_encode]
  rw [rawNames, bytesOf_eq_encode, splitOn_encode, normalParts, ← segments_eq_splitOn, List.filter_map,
    List.filter_map, List.map_map]
  simp only [Function.comp_def, ne_eq, hempty, hdot, hdots, hlossy]

/-- **On text** paths of bytes are named as paths are. -/
theorem rawEntryName?_bytesOf (text : String) : rawEntryName? (bytesOf text) = entryName? text := by
  have hnames := map_lossy_rawNames_bytesOf text
  have hnil : rawNames (bytesOf text) = [] ↔ normalParts text = [] := by
    rw [← hnames, List.map_eq_nil_iff]
  rw [rawEntryName?, entryName?, names_eq_normalParts, hnames]
  simp only [hnil]

/-! ## Names that are packed -/

/-- The name of what is found below a directory is the text of a longer way. -/
theorem foldl_childName {way : List String} (hne : way ≠ []) (children : List (List UInt8)) :
    children.foldl childName (ofNames way) = ofNames (way ++ children.map lossy) := by
  induction children generalizing way with
  | nil => rw [List.foldl_nil, List.map_nil, List.append_nil]
  | cons child children ih =>
    have hchild : childName (ofNames way) child = ofNames (way ++ [lossy child]) :=
      (ofNames_append hne (List.cons_ne_nil _ [])).symm
    rw [List.foldl_cons, hchild, ih (List.append_ne_nil_of_left_ne_nil hne _), List.map_cons,
      List.append_assoc, List.singleton_append]

/-- **Every name that is packed can be unpacked.** A path has a name if there is some normal name along
it, and this one, with those of what is found below appended, is accepted as the way along all of
them. -/
theorem safeNames?_packedName :
    (∀ text, rawEntryName? (bytesOf text) = entryName? text ∧
      (rawNames (bytesOf text)).map lossy = normalParts text) ∧
    ∀ path, (rawEntryName? path = none ↔ rawNames path = []) ∧
      ∀ name, rawEntryName? path = some name →
        ∀ children : List (List UInt8), (∀ child ∈ children, IsNormal (lossy child)) →
          ∃ way, safeNames? (children.foldl childName name) = some way ∧
            components (ofNames way)
              = ((rawNames path ++ children).map lossy).map Component.entry := by
  refine ⟨fun text => ⟨rawEntryName?_bytesOf text, map_lossy_rawNames_bytesOf text⟩,
    fun path => ⟨?_, fun name hname children hchildren => ?_⟩⟩
  · rw [rawEntryName?, ite_eq_left_iff]
    exact ⟨fun h => by_contra fun hne => (nomatch h hne), fun h hne => absurd h hne⟩
  · rw [rawEntryName?, Option.ite_none_left_eq_some] at hname
    obtain ⟨hne, hname⟩ := hname
    obtain rfl := Option.some.inj hname
    have hway : ∀ name ∈ (rawNames path ++ children).map lossy, IsNormal name := by
      intro name hmem
      obtain ⟨raw, hraw, rfl⟩ := List.mem_map.mp hmem
      rcases List.mem_append.mp hraw with hraw | hraw
      · exact isNormal_lossy (isFileName_of_mem_rawNames hraw)
      · exact hchildren raw hraw
    have hpath : (rawNames path).map lossy ≠ [] := fun h => hne (List.map_eq_nil_iff.mp h)
    rw [foldl_childName hpath, ← List.map_append]
    refine ⟨_, safeNames?_ofNames hway ?_, components_ofNames hway⟩
    rw [List.map_append]
    exact List.append_ne_nil_of_left_ne_nil hpath _

end Path

end RecordArchive
