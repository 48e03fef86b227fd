import JarCensus.Proofs.ClassFile.Layout
import JarCensus.Proofs.Results

/-! The decoder accepts exactly the bytes of valid class files, with anything after them, and keeps
exactly their projection. Every reader is matched with the layout of what it reads. -/
namespace JarCensus.ClassFile

open Reader (Reads Encodings encodeTable ValidTable)

theorem Tag.ofByte?_eq_some_iff (byte : UInt8) (tag : Tag) :
    Tag.ofByte? byte = some tag ↔ byte = tag.byte := by
  constructor
  · intro found
    have same := List.find?_some found
    simpa [eq_comm] using same
  · rintro rfl
    cases tag <;> decide

theorem Tag.byte_injective (tag other : Tag) (same : tag.byte = other.byte) : tag = other := by
  have found := (Tag.ofByte?_eq_some_iff _ other).mpr rfl
  rw [← same, (Tag.ofByte?_eq_some_iff _ tag).mpr rfl] at found
  exact Option.some.inj found

namespace ConstantPool

theorem get_eq_ok_iff (pool : ConstantPool) (index : UInt16) (constant : Constant) :
    pool.get index = .ok constant ↔ pool.slots[index.toNat]? = some (some constant) := by
  simp only [get]
  split
  next found => simp [found]
  next other =>
    simp only [reduceCtorEq, false_iff]
    exact other constant

theorem text?_eq_some_iff (pool : ConstantPool) (index : UInt16) (text : String) :
    pool.text? index = some text ↔ pool.slots[index.toNat]? = some (some (.utf8 text)) := by
  simp only [text?]
  split
  next found => simp [found]
  next other =>
    simp only [reduceCtorEq, false_iff]
    exact other text

theorem className?_eq_some_iff (pool : ConstantPool) (index : UInt16) (name : String) :
    pool.className? index = some name ↔
      ∃ at', pool.slots[index.toNat]? = some (some (.classInfo at')) ∧
        pool.text? at' = some name := by
  simp only [className?]
  split
  next found => simp [found]
  next other =>
    simp only [reduceCtorEq, false_iff]
    rintro ⟨at', found, _⟩
    exact other at' found

theorem text_eq_ok_iff (pool : ConstantPool) (index : UInt16) (text : String) :
    pool.text index = .ok text ↔ pool.text? index = some text := by
  rw [text?_eq_some_iff, ← get_eq_ok_iff, ConstantPool.text, bind_eq_ok_iff]
  constructor
  · rintro ⟨constant, got, kept⟩
    cases constant <;> cases kept
    exact got
  · intro got
    exact ⟨_, got, rfl⟩

theorem className_eq_ok_iff (pool : ConstantPool) (index : UInt16) (name : String) :
    pool.className index = .ok name ↔ pool.className? index = some name := by
  simp only [className?_eq_some_iff, ← get_eq_ok_iff, ← text_eq_ok_iff, ConstantPool.className,
    bind_eq_ok_iff]
  constructor
  · rintro ⟨constant, got, kept⟩
    cases constant with
    | classInfo at' => exact ⟨at', got, kept⟩
    | utf8 | nameAndType | methodRef | other => cases kept
  · rintro ⟨at', got, kept⟩
    exact ⟨_, got, kept⟩

end ConstantPool

/-- The payloads of the constants of one kind, each with what is kept of its constant. -/
def payloads (tag : Tag) : List UInt8 → Constant → Prop :=
  Encodings (fun entry : Entry => entry.tag = tag ∧ entry.Valid) Entry.payload Entry.constant

/-- A constant that is two indices. -/
theorem pair_reads (tag : Tag) (entry : UInt16 → UInt16 → Entry) (keep : UInt16 → UInt16 → Constant)
    (shape : ∀ a b, (entry a b).tag = tag ∧ (entry a b).Valid ∧
      (entry a b).payload = bytes16 a ++ bytes16 b ∧ (entry a b).constant = keep a b)
    (covered : ∀ e : Entry, e.tag = tag → ∃ a b, e = entry a b) :
    Reads (do let a ← Reader.u2; let b ← Reader.u2; return keep a b) (payloads tag) := by
  refine (Reads.u2.bind_encoded fun a => Reads.u2.map (keep a)).congr fun bytes c => ?_
  constructor
  · rintro ⟨a, _, ⟨b, rfl, rfl⟩, rfl⟩
    obtain ⟨same, valid, payload, constant⟩ := shape a b
    exact ⟨entry a b, ⟨same, valid⟩, payload.symm, constant.symm⟩
  · rintro ⟨e, ⟨same, _⟩, rfl, rfl⟩
    obtain ⟨a, b, rfl⟩ := covered e same
    obtain ⟨_, _, payload, constant⟩ := shape a b
    exact ⟨a, _, ⟨b, rfl, constant⟩, payload⟩

theorem utf8_reads : Reads (readConstant .utf8) (payloads .utf8) := by
  refine (Reads.u2.bind_encoded fun length => Reads.bytes_bind length.toNat fun bytes =>
    (Reads.check (ModifiedUtf8.decode bytes)).map Constant.utf8).congr fun bytes c => ?_
  constructor
  · rintro ⟨length, _, ⟨_, _, fits, ⟨_, ⟨rfl, read⟩, rfl⟩, rfl⟩, rfl⟩
    obtain ⟨groups, rfl, rfl⟩ := (ModifiedUtf8.decode_eq_ok_iff _ _).mp read
    have bound : (ModifiedUtf8.encode groups).length < 2 ^ 16 := by
      rw [fits]
      exact length.toNat_lt
    exact ⟨.utf8 groups, ⟨rfl, bound⟩, by simp [Entry.payload, fits], rfl⟩
  · rintro ⟨entry, ⟨same, valid⟩, rfl, rfl⟩
    cases entry <;> cases same
    next groups =>
    have read := (ModifiedUtf8.decode_eq_ok_iff _ _).mpr ⟨groups, rfl, rfl⟩
    have fits : (UInt16.ofNat (ModifiedUtf8.encode groups).length).toNat =
        (ModifiedUtf8.encode groups).length := by
      rw [UInt16.toNat_ofNat', Nat.mod_eq_of_lt valid]
    exact ⟨_, _, ⟨_, [], fits.symm, ⟨_, ⟨rfl, read⟩, rfl⟩, rfl⟩, by simp [Entry.payload]⟩

theorem classInfo_reads : Reads (readConstant .classInfo) (payloads .classInfo) := by
  refine (Reads.u2.map Constant.classInfo).congr fun bytes c => ?_
  constructor
  · rintro ⟨name, rfl, rfl⟩
    exact ⟨.classInfo name, ⟨rfl, trivial⟩, rfl, rfl⟩
  · rintro ⟨entry, ⟨same, _⟩, rfl, rfl⟩
    cases entry <;> cases same
    exact ⟨_, rfl, rfl⟩

/-- The length of a constant of which nothing is kept. -/
def Tag.dropped? : Tag → Option Nat
  | .integer | .float | .fieldRef | .dynamic | .invokeDynamic => some 4
  | .long | .double => some 8
  | .string | .methodType | .moduleInfo | .packageInfo => some 2
  | .methodHandle => some 3
  | .utf8 | .classInfo | .methodRef | .interfaceMethodRef | .nameAndType => none

theorem exists_indices (bytes : List UInt8) (length : bytes.length = 4) :
    ∃ first second, bytes = bytes16 first ++ bytes16 second := by
  obtain ⟨first, tail, rfl, two⟩ := exists_bytes16_append bytes 2 length
  obtain ⟨second, rfl⟩ := exists_bytes16 tail two
  exact ⟨first, second, rfl⟩

theorem exists_words (bytes : List UInt8) (length : bytes.length = 8) :
    ∃ high low, bytes = bytes32 high ++ bytes32 low := by
  obtain ⟨high, tail, rfl, four⟩ := exists_bytes32_append bytes 4 length
  obtain ⟨low, rfl⟩ := exists_bytes32 tail four
  exact ⟨high, low, rfl⟩

theorem exists_byte_index (bytes : List UInt8) (length : bytes.length = 3) :
    ∃ kind reference, bytes = kind :: bytes16 reference := by
  obtain ⟨kind, tail, rfl⟩ := List.exists_cons_of_length_eq_add_one length
  obtain ⟨reference, rfl⟩ := exists_bytes16 tail (Nat.succ.inj length)
  exact ⟨kind, reference, rfl⟩

/-- Bytes of the right length are the payload of some constant of a dropped kind. -/
theorem exists_dropped (tag : Tag) (length : Nat) (dropped : tag.dropped? = some length)
    (bytes : List UInt8) (fits : bytes.length = length) :
    ∃ entry : Entry, entry.tag = tag ∧ bytes = entry.payload := by
  cases tag <;> cases dropped
  case integer =>
    obtain ⟨word, rfl⟩ := exists_bytes32 bytes fits
    exact ⟨.integer word, rfl, rfl⟩
  case float =>
    obtain ⟨word, rfl⟩ := exists_bytes32 bytes fits
    exact ⟨.float word, rfl, rfl⟩
  case long =>
    obtain ⟨high, low, rfl⟩ := exists_words bytes fits
    exact ⟨.long high low, rfl, rfl⟩
  case double =>
    obtain ⟨high, low, rfl⟩ := exists_words bytes fits
    exact ⟨.double high low, rfl, rfl⟩
  case string =>
    obtain ⟨text, rfl⟩ := exists_bytes16 bytes fits
    exact ⟨.string text, rfl, rfl⟩
  case fieldRef =>
    obtain ⟨owner, nameAndType, rfl⟩ := exists_indices bytes fits
    exact ⟨.fieldRef owner nameAndType, rfl, rfl⟩
  case methodHandle =>
    obtain ⟨kind, reference, rfl⟩ := exists_byte_index bytes fits
    exact ⟨.methodHandle kind reference, rfl, rfl⟩
  case methodType =>
    obtain ⟨descriptor, rfl⟩ := exists_bytes16 bytes fits
    exact ⟨.methodType descriptor, rfl, rfl⟩
  case dynamic =>
    obtain ⟨bootstrap, nameAndType, rfl⟩ := exists_indices bytes fits
    exact ⟨.dynamic bootstrap nameAndType, rfl, rfl⟩
  case invokeDynamic =>
    obtain ⟨bootstrap, nameAndType, rfl⟩ := exists_indices bytes fits
    exact ⟨.invokeDynamic bootstrap nameAndType, rfl, rfl⟩
  case moduleInfo =>
    obtain ⟨name, rfl⟩ := exists_bytes16 bytes fits
    exact ⟨.moduleInfo name, rfl, rfl⟩
  case packageInfo =>
    obtain ⟨name, rfl⟩ := exists_bytes16 bytes fits
    exact ⟨.packageInfo name, rfl, rfl⟩

theorem dropped_reads (tag : Tag) (length : Nat) (dropped : tag.dropped? = some length) :
    Reads (readConstant tag) (payloads tag) := by
  have skips : readConstant tag = (do Reader.skip length; return Constant.other) := by
    cases tag <;> cases dropped <;> rfl
  rw [skips]
  refine ((Reads.skip length).map fun _ => Constant.other).congr fun bytes c => ?_
  constructor
  · rintro ⟨_, fits, rfl⟩
    obtain ⟨entry, same, rfl⟩ := exists_dropped tag length dropped bytes fits
    refine ⟨entry, ⟨same, ?_⟩, rfl, ?_⟩ <;> subst same <;> cases entry <;> cases dropped <;>
      trivial
  · rintro ⟨entry, ⟨rfl, _⟩, rfl, rfl⟩
    refine ⟨(), ?_, ?_⟩ <;> cases entry <;> cases dropped <;> rfl

theorem readConstant_reads (tag : Tag) : Reads (readConstant tag) (payloads tag) := by
  cases tag with
  | utf8 => exact utf8_reads
  | classInfo => exact classInfo_reads
  | methodRef =>
    refine pair_reads _ .methodRef .methodRef (fun _ _ => ⟨rfl, trivial, rfl, rfl⟩) ?_
    intro entry same
    cases entry <;> cases same
    exact ⟨_, _, rfl⟩
  | interfaceMethodRef =>
    refine pair_reads _ .interfaceMethodRef .methodRef (fun _ _ => ⟨rfl, trivial, rfl, rfl⟩) ?_
    intro entry same
    cases entry <;> cases same
    exact ⟨_, _, rfl⟩
  | nameAndType =>
    refine pair_reads _ .nameAndType .nameAndType (fun _ _ => ⟨rfl, trivial, rfl, rfl⟩) ?_
    intro entry same
    cases entry <;> cases same
    exact ⟨_, _, rfl⟩
  | _ => exact dropped_reads _ _ rfl

/-- Constants that take so many slots, and the slots `filled` before with theirs added. -/
def fillings (remaining : Nat) (filled : Array (Option Constant)) :
    List UInt8 → Array (Option Constant) → Prop :=
  Encodings (fun entries : List Entry => (entries.flatMap Entry.slots).length = remaining ∧
      ∀ entry ∈ entries, entry.Valid)
    (·.flatMap Entry.encode) (fun entries => filled ++ (entries.flatMap Entry.slots).toArray)

/-- Fillings after the tag of their first constant has been read. -/
def fillingsAfter (byte : UInt8) (remaining : Nat) (filled : Array (Option Constant)) :
    List UInt8 → Array (Option Constant) → Prop :=
  fun bytes slots => ∃ (entry : Entry) (rest : Nat) (tail : List UInt8),
    byte = entry.tag.byte ∧ entry.Valid ∧ entry.slots.length + rest = remaining ∧
      fillings rest (filled ++ entry.slots.toArray) tail slots ∧ bytes = entry.payload ++ tail

theorem fillings_cons (remaining : Nat) (filled : Array (Option Constant)) (bytes : List UInt8)
    (slots : Array (Option Constant)) :
    fillings (remaining + 1) filled bytes slots ↔
      ∃ byte tail, fillingsAfter byte (remaining + 1) filled tail slots ∧
        bytes = [byte] ++ tail := by
  constructor
  · rintro ⟨entries, ⟨length, valid⟩, rfl, rfl⟩
    cases entries with
    | nil => simp at length
    | cons entry entries =>
      obtain ⟨first, others⟩ := List.forall_mem_cons.mp valid
      rw [List.flatMap_cons, List.length_append] at length
      refine ⟨_, _, ⟨entry, _, _, rfl, first, length, ⟨entries, ⟨rfl, others⟩, rfl, ?_⟩, rfl⟩, rfl⟩
      simp
  · rintro ⟨_, _, ⟨entry, rest, _, rfl, first, length, ⟨entries, ⟨rfl, others⟩, rfl, rfl⟩, rfl⟩,
      rfl⟩
    refine ⟨entry :: entries, ⟨?_, List.forall_mem_cons.mpr ⟨first, others⟩⟩, rfl, by simp⟩
    rw [List.flatMap_cons, List.length_append, length]

/-- One constant of a known kind, then the rest. -/
theorem readConstant_bind_reads (tag : Tag) (width remaining : Nat)
    (filled : Array (Option Constant)) (add : Constant → Array (Option Constant))
    (next : Constant → Reader (Array (Option Constant)))
    (slots : ∀ entry : Entry, entry.tag = tag →
      entry.slots.length = width ∧ filled ++ entry.slots.toArray = add entry.constant)
    (continues : ∀ constant, Reads (next constant) (fillings remaining (add constant))) :
    Reads (readConstant tag >>= next) (fillingsAfter tag.byte (width + remaining) filled) := by
  refine ((readConstant_reads tag).bind continues).congr fun bytes result => ?_
  constructor
  · rintro ⟨_, _, tail, ⟨entry, ⟨same, valid⟩, rfl, rfl⟩, inside, rfl⟩
    obtain ⟨size, added⟩ := slots entry same
    exact ⟨entry, remaining, tail, by rw [same], valid, by rw [size], by rwa [added], rfl⟩
  · rintro ⟨entry, rest, tail, first, valid, length, inside, rfl⟩
    have same := Tag.byte_injective _ _ first.symm
    obtain ⟨size, added⟩ := slots entry same
    obtain rfl : rest = remaining := by omega
    exact ⟨_, _, tail, ⟨entry, ⟨same, valid⟩, rfl, rfl⟩, by rwa [← added], rfl⟩

/-- Slots are filled constant by constant, until none remains. -/
theorem readSlots_reads (remaining : Nat) (index : UInt16) (filled : Array (Option Constant)) :
    Reads (ConstantPool.readSlots remaining index filled) (fillings remaining filled) := by
  -- a wide constant takes two of the remaining slots at once, so the induction is strong
  induction remaining using Nat.strongRecOn generalizing index filled with
  | ind remaining ih =>
  cases remaining with
  | zero =>
    rw [ConstantPool.readSlots]
    refine (Reads.pure filled).congr fun bytes slots => ?_
    constructor
    · rintro ⟨rfl, rfl⟩
      exact ⟨[], ⟨rfl, by simp⟩, rfl, by simp⟩
    · rintro ⟨entries, ⟨none, _⟩, rfl, rfl⟩
      cases entries with
      | nil => simp
      | cons entry entries =>
        rw [List.flatMap_cons, List.length_append, Entry.slots] at none
        split at none <;> simp at none
  | succ remaining =>
    rw [ConstantPool.readSlots]
    refine Reads.congr (Reads.u1.bind_encoded fun byte =>
      (?_ : Reads _ (fillingsAfter byte (remaining + 1) filled)))
      fun bytes slots => (fillings_cons remaining filled bytes slots).symm
    cases found : Tag.ofByte? byte with
    | none =>
      refine (Reads.throw _).congr fun bytes slots => ?_
      simp only [false_iff]
      rintro ⟨entry, _, _, rfl, _⟩
      rw [(Tag.ofByte?_eq_some_iff _ entry.tag).mpr rfl] at found
      cases found
    | some tag =>
      obtain rfl := (Tag.ofByte?_eq_some_iff byte tag).mp found
      by_cases wide : tag.isWide = true
      · have slots (entry : Entry) (same : entry.tag = tag) :
            entry.slots = [some entry.constant, none] := if_pos (same ▸ wide)
        simp only [wide, if_true]
        cases remaining with
        | zero =>
          refine (Reads.throw _).congr fun bytes result => ?_
          simp only [false_iff]
          rintro ⟨entry, rest, _, first, _, length, _⟩
          have two : entry.slots.length = 2 := by
            rw [slots entry (Tag.byte_injective _ _ first.symm)]
            rfl
          omega
        | succ remaining =>
          rw [show remaining + 1 + 1 = 2 + remaining by omega]
          refine readConstant_bind_reads tag 2 remaining filled
            (fun constant => (filled.push (some constant)).push none) _ ?_ fun constant =>
              ih remaining (by omega) _ _
          intro entry same
          rw [slots entry same]
          exact ⟨rfl, by apply Array.ext'; simp⟩
      · have slots (entry : Entry) (same : entry.tag = tag) :
            entry.slots = [some entry.constant] := if_neg (same ▸ wide)
        simp only [wide]
        rw [show remaining + 1 = 1 + remaining by omega]
        refine readConstant_bind_reads tag 1 remaining filled
          (fun constant => filled.push (some constant)) _ ?_ fun constant =>
            ih remaining (by omega) _ _
        intro entry same
        rw [slots entry same]
        exact ⟨rfl, by apply Array.ext'; simp⟩

theorem read_reads : Reads ConstantPool.read fun bytes pool =>
    ∃ (count : UInt16) (entries : List Entry),
      (entries.flatMap Entry.slots).length = count.toNat - 1 ∧ (∀ entry ∈ entries, entry.Valid) ∧
      bytes = bytes16 count ++ entries.flatMap Entry.encode ∧ pool = .ofEntries entries := by
  refine (Reads.u2.bind_encoded fun count =>
    (readSlots_reads (count.toNat - 1) 1 #[none]).map ConstantPool.mk).congr fun bytes pool => ?_
  constructor
  · rintro ⟨count, _, ⟨_, ⟨entries, ⟨length, valid⟩, rfl, rfl⟩, rfl⟩, rfl⟩
    exact ⟨count, entries, length, valid, rfl, by simp [ConstantPool.ofEntries]⟩
  · rintro ⟨count, entries, length, valid, rfl, rfl⟩
    refine ⟨count, _, ⟨_, ⟨entries, ⟨length, valid⟩, rfl, rfl⟩, ?_⟩, rfl⟩
    simp [ConstantPool.ofEntries]

theorem skipAttribute_reads :
    Reads skipAttribute (Encodings Attribute.Valid Attribute.encode fun _ => ()) := by
  refine (Reads.skip_bind 2 (Reads.u4.bind_encoded fun length => Reads.skip length.toNat)).congr
    fun bytes _ => ?_
  constructor
  · rintro ⟨_, _, pair, ⟨length, body, fits, rfl⟩, rfl⟩
    obtain ⟨name, rfl⟩ := exists_bytes16 _ pair
    refine ⟨⟨name, body⟩, ?_, ?_, rfl⟩
    · rw [Attribute.Valid, fits]
      exact length.toNat_lt
    · simp [Attribute.encode, fits]
  · rintro ⟨⟨name, body⟩, valid, rfl, _⟩
    refine ⟨bytes16 name, _, rfl, ⟨UInt32.ofNat body.length, body, ?_, rfl⟩, ?_⟩
    · rw [UInt32.toNat_ofNat', Nat.mod_eq_of_lt valid]
    · simp [Attribute.encode]

theorem skipAttributes_reads : Reads skipAttributes
    (Encodings (ValidTable Attribute.Valid) (encodeTable Attribute.encode) fun _ => ()) := by
  refine (skipAttribute_reads.table.map fun _ => ()).congr fun bytes _ => ?_
  constructor
  · rintro ⟨_, ⟨items, valid, rfl, rfl⟩, _⟩
    exact ⟨items, valid, rfl, rfl⟩
  · rintro ⟨items, valid, rfl, _⟩
    exact ⟨_, ⟨items, valid, rfl, rfl⟩, rfl⟩

theorem skipField_reads :
    Reads skipField (Encodings FieldLayout.Valid FieldLayout.encode fun _ => ()) := by
  refine (Reads.skip_bind 6 skipAttributes_reads).congr fun bytes _ => ?_
  constructor
  · rintro ⟨header, _, six, ⟨items, valid, rfl, _⟩, rfl⟩
    obtain ⟨access, rest, rfl, four⟩ := exists_bytes16_append header 4 six
    obtain ⟨name, descriptor, rfl⟩ := exists_indices rest four
    exact ⟨⟨access, name, descriptor, items⟩, valid, by simp [FieldLayout.encode], rfl⟩
  · rintro ⟨⟨access, name, descriptor, items⟩, valid, rfl, _⟩
    exact ⟨bytes16 access ++ bytes16 name ++ bytes16 descriptor, _, rfl,
      ⟨items, valid, rfl, rfl⟩, rfl⟩

@[simp] theorem length_encode_handler (handler : Handler) : handler.encode.length = 8 := rfl

theorem exists_handler (bytes : List UInt8) (length : bytes.length = 8) :
    ∃ handler : Handler, bytes = handler.encode := by
  obtain ⟨first, rest, rfl, six⟩ := exists_bytes16_append bytes 6 length
  obtain ⟨last, rest, rfl, four⟩ := exists_bytes16_append rest 4 six
  obtain ⟨target, rest, rfl, two⟩ := exists_bytes16_append rest 2 four
  obtain ⟨catchType, rfl⟩ := exists_bytes16 rest two
  exact ⟨⟨first, last, target, catchType⟩, by simp [Handler.encode]⟩

theorem codeArray_reads :
    Reads codeArray (Encodings CodeBody.Valid CodeBody.encodeParts CodeBody.code) := by
  refine (Reads.skip_bind 4 (Reads.u4.bind_encoded fun length => Reads.bytes_bind length.toNat
    fun code => Reads.u2.bind_encoded fun count => Reads.skip_bind (count.toNat * 8)
      (skipAttributes_reads.map fun _ => code))).congr fun bytes code => ?_
  constructor
  · rintro ⟨header, _, four, ⟨length, _, ⟨code, _, fits, ⟨count, _, ⟨table, _, rows,
      ⟨_, ⟨items, valid, rfl, _⟩, rfl⟩, rfl⟩, rfl⟩, rfl⟩, rfl⟩, rfl⟩
    obtain ⟨maxStack, maxLocals, rfl⟩ := exists_indices header four
    obtain ⟨handlers, size, rfl⟩ := exists_flatMap exists_handler _ table rows
    refine ⟨⟨maxStack, maxLocals, code, handlers, items, []⟩, ⟨?_, ?_, valid⟩, ?_, rfl⟩
    · rw [fits]
      exact length.toNat_lt
    · rw [size]
      exact count.toNat_lt
    · simp [CodeBody.encodeParts, encodeTable, fits, size]
  · rintro ⟨body, ⟨small, few, valid⟩, rfl, rfl⟩
    refine ⟨bytes16 body.maxStack ++ bytes16 body.maxLocals, _, rfl,
      ⟨UInt32.ofNat body.code.length, _, ⟨body.code, _, ?_,
        ⟨UInt16.ofNat body.handlers.length, _, ⟨body.handlers.flatMap Handler.encode, _, ?_,
          ⟨(), ⟨body.attributes, valid, rfl, rfl⟩, rfl⟩, rfl⟩, rfl⟩, rfl⟩, rfl⟩, ?_⟩
    · rw [UInt32.toNat_ofNat', Nat.mod_eq_of_lt small]
    · rw [length_flatMap_of_length length_encode_handler, UInt16.toNat_ofNat',
        Nat.mod_eq_of_lt few]
    · simp [CodeBody.encodeParts, encodeTable]

theorem decodeBody_eq_ok_iff (pool : ConstantPool) (bytes : List UInt8)
    (instructions : List Instruction) :
    decodeBody pool bytes = .ok instructions ↔ ∃ body : CodeBody, body.Valid ∧
      bytes = body.encode ∧ decodeInstructions pool body.code = .ok instructions := by
  rw [decodeBody, bind_eq_ok_iff]
  constructor
  · rintro ⟨code, ran, decoded⟩
    obtain ⟨_, trailing, ⟨body, valid, rfl, rfl⟩, rfl⟩ := (codeArray_reads.runOn bytes code).mp ran
    exact ⟨{ body with trailing }, ⟨valid.code, valid.handlers, valid.attributes⟩, rfl, decoded⟩
  · rintro ⟨body, valid, rfl, decoded⟩
    refine ⟨body.code, (codeArray_reads.runOn _ _).mpr ?_, decoded⟩
    exact ⟨_, body.trailing, ⟨body, valid, rfl, rfl⟩, rfl⟩

theorem readMethodAttribute_reads (pool : ConstantPool) : Reads (readMethodAttribute pool)
    (Encodings (MethodAttribute.Valid pool) MethodAttribute.encode
      (MethodAttribute.instructions? pool)) := by
  refine (Reads.u2.bind_encoded fun index => Reads.check_bind (pool.text index) fun name =>
    Reads.u4.bind_encoded fun length => Reads.bytes_bind length.toNat fun body =>
      Reads.ite (name = "Code") ((Reads.check (decodeBody pool body)).map some)
        (Reads.pure none)).congr fun bytes kept => ?_
  simp only [ConstantPool.text_eq_ok_iff, decodeBody_eq_ok_iff]
  constructor
  · rintro ⟨index, _, ⟨name, named, length, _, ⟨bytes, _, fits, inside, rfl⟩, rfl⟩, rfl⟩
    have small : bytes.length < 2 ^ 32 := by
      rw [fits]
      exact length.toNat_lt
    rcases inside with ⟨rfl, instructions, ⟨rfl, body, valid, rfl, decoded⟩, rfl⟩ |
      ⟨other, rfl, rfl⟩
    · refine ⟨.code index body, ⟨small, named, valid, instructions, decoded⟩, ?_, ?_⟩
      · simp [MethodAttribute.encode, MethodAttribute.asAttribute, Attribute.encode, fits]
      · simp [MethodAttribute.instructions?, decoded, Except.toOption]
    · refine ⟨.other ⟨index, bytes⟩, ⟨small, name, named, other⟩, ?_, rfl⟩
      simp [MethodAttribute.encode, MethodAttribute.asAttribute, Attribute.encode, fits]
  · rintro ⟨item, ⟨small, kind⟩, rfl, rfl⟩
    have fits :
        (UInt32.ofNat item.asAttribute.body.length).toNat = item.asAttribute.body.length := by
      rw [UInt32.toNat_ofNat', Nat.mod_eq_of_lt small]
    cases item with
    | code index body =>
      obtain ⟨named, valid, instructions, decoded⟩ := kind
      refine ⟨index, _, ⟨"Code", named, _, _, ⟨_, [], fits.symm,
        .inl ⟨rfl, instructions, ⟨rfl, body, valid, rfl, decoded⟩, ?_⟩, rfl⟩, rfl⟩, ?_⟩
      · simp [MethodAttribute.instructions?, decoded, Except.toOption]
      · simp [MethodAttribute.encode, MethodAttribute.asAttribute, Attribute.encode]
    | other item =>
      obtain ⟨name, named, other⟩ := kind
      refine ⟨item.name, _, ⟨name, named, _, _, ⟨_, [], fits.symm, .inr ⟨other, rfl, rfl⟩, rfl⟩,
        rfl⟩, ?_⟩
      simp [MethodAttribute.encode, MethodAttribute.asAttribute, Attribute.encode]

theorem readMethod_reads (pool : ConstantPool) (owner : String) : Reads (readMethod pool owner)
    (Encodings (MethodLayout.Valid pool) MethodLayout.encode
      (MethodLayout.projection pool owner)) := by
  refine (Reads.u2.bind_encoded fun access => Reads.u2.bind_encoded fun nameIndex =>
    Reads.check_bind (pool.text nameIndex) fun name => Reads.u2.bind_encoded fun descriptorIndex =>
      Reads.check_bind (pool.text descriptorIndex) fun descriptor =>
        (readMethodAttribute_reads pool).table.map fun bodies =>
          ({ owner, access, name, descriptor,
             instructions := ((bodies.filterMap id).getLast?).getD [] } : Method)).congr
    fun bytes method => ?_
  simp only [ConstantPool.text_eq_ok_iff]
  constructor
  · rintro ⟨access, _, ⟨nameIndex, _, ⟨name, named, descriptorIndex, _, ⟨descriptor, described,
      _, ⟨items, valid, rfl, rfl⟩, rfl⟩, rfl⟩, rfl⟩, rfl⟩
    refine ⟨⟨access, nameIndex, descriptorIndex, items⟩, ⟨?_, ?_, valid⟩, ?_, ?_⟩
    · simp [named]
    · simp [described]
    · simp [MethodLayout.encode]
    · simp [MethodLayout.projection, named, described, List.filterMap_map]
  · rintro ⟨method, ⟨named, described, valid⟩, rfl, rfl⟩
    obtain ⟨name, named⟩ := Option.isSome_iff_exists.mp named
    obtain ⟨descriptor, described⟩ := Option.isSome_iff_exists.mp described
    refine ⟨method.access, _, ⟨method.name, _, ⟨name, named, method.descriptor, _,
      ⟨descriptor, described, _, ⟨method.attributes, valid, rfl, rfl⟩, ?_⟩, rfl⟩, rfl⟩, ?_⟩
    · simp [MethodLayout.projection, named, described, List.filterMap_map]
    · simp [MethodLayout.encode]

theorem readClassName_reads (pool : ConstantPool) : Reads (readClassName pool)
    (Encodings (fun index => (pool.className? index).isSome) bytes16
      fun index => dotted ((pool.className? index).getD "")) := by
  refine (Reads.u2.bind_encoded fun index =>
    (Reads.check (pool.className index)).map dotted).congr fun bytes name => ?_
  simp only [ConstantPool.className_eq_ok_iff]
  constructor
  · rintro ⟨index, _, ⟨name, ⟨rfl, named⟩, rfl⟩, rfl⟩
    exact ⟨index, by simp [named], by simp, by simp [named]⟩
  · rintro ⟨index, named, rfl, rfl⟩
    obtain ⟨name, named⟩ := Option.isSome_iff_exists.mp named
    exact ⟨index, [], ⟨name, ⟨rfl, named⟩, by simp [named]⟩, by simp⟩

theorem readSuperName_reads (pool : ConstantPool) : Reads (readSuperName pool)
    (Encodings (fun index => index = 0 ∨ (pool.className? index).isSome) bytes16
      fun index =>
        if index = 0 then none else some (dotted ((pool.className? index).getD ""))) := by
  refine (Reads.u2.bind_encoded fun index => Reads.ite (index = 0) (Reads.pure none)
    ((Reads.check (pool.className index)).map fun name => some (dotted name))).congr
      fun bytes name => ?_
  simp only [ConstantPool.className_eq_ok_iff]
  constructor
  · rintro ⟨index, _, ⟨rfl, rfl, rfl⟩ | ⟨present, name, ⟨rfl, named⟩, rfl⟩, rfl⟩
    · exact ⟨0, .inl rfl, by simp, by simp⟩
    · exact ⟨index, .inr (by simp [named]), by simp, by simp [named, present]⟩
  · rintro ⟨index, named, rfl, rfl⟩
    by_cases absent : index = 0
    · exact ⟨index, [], .inl ⟨absent, rfl, by simp [absent]⟩, by simp⟩
    · obtain ⟨name, named⟩ := Option.isSome_iff_exists.mp (named.resolve_left absent)
      exact ⟨index, [], .inr ⟨absent, name, ⟨rfl, named⟩, by simp [named, absent]⟩, by simp⟩

/-- What follows the magic word. -/
def readParts : Reader ClassFile := do
  let minor ← Reader.u2
  let major ← Reader.u2
  let pool ← ConstantPool.read
  let access ← Reader.u2
  let name ← readClassName pool
  let superName ← readSuperName pool
  let interfaces ← Reader.table (readClassName pool)
  let _ ← Reader.table skipField
  let methods ← Reader.table (readMethod pool name)
  return { minor, major, access, name, superName, interfaces, methods }

theorem readClass_eq : readClass = (do
    let word ← Reader.u4
    if word = magic then readParts else throw (.badMagic word)) := by
  rw [readClass]
  congr 1
  funext word
  by_cases good : word = magic
  · simp only [good, ne_eq, not_true_eq_false, if_false, if_true]
    rfl
  · simp only [good, ne_eq, not_false_eq_true, if_false, if_true]
    rfl

/-- A pool that names a class is not empty, so its count cannot be zero. -/
theorem slots_ne_nil_of_className? (entries : List Entry) (index : UInt16)
    (named : ((ConstantPool.ofEntries entries).className? index).isSome) :
    (entries.flatMap Entry.slots).length ≠ 0 := by
  intro empty
  obtain ⟨name, named⟩ := Option.isSome_iff_exists.mp named
  obtain ⟨at', found, _⟩ := (ConstantPool.className?_eq_some_iff _ _ _).mp named
  rw [ConstantPool.ofEntries, List.length_eq_zero_iff.mp empty] at found
  cases position : index.toNat <;> simp [position] at found

theorem readParts_reads : Reads readParts
    (Encodings ClassLayout.Valid ClassLayout.encodeParts ClassLayout.projection) := by
  refine (Reads.u2.bind_encoded fun minor => Reads.u2.bind_encoded fun major =>
    read_reads.bind fun pool => Reads.u2.bind_encoded fun access =>
      (readClassName_reads pool).bind_encodings fun name =>
        (readSuperName_reads pool).bind_encodings fun superName =>
          (readClassName_reads pool).table.bind_encodings fun interfaces =>
            skipField_reads.table.bind_encodings fun _ =>
              (readMethod_reads pool name).table.map fun methods =>
                ({ minor, major, access, name, superName, interfaces, methods } : ClassFile)).congr
    fun bytes c => ?_
  constructor
  · rintro ⟨minor, _, ⟨major, _, ⟨_, _, _, ⟨count, constants, size, valid, rfl, rfl⟩,
      ⟨access, _, ⟨thisClass, _, named, ⟨superClass, _, above, ⟨interfaces, _, beside,
        ⟨fields, _, fieldsValid, ⟨_, ⟨methods, methodsValid, rfl, rfl⟩, rfl⟩, rfl⟩, rfl⟩, rfl⟩,
        rfl⟩, rfl⟩, rfl⟩, rfl⟩, rfl⟩
    have counted : (constants.flatMap Entry.slots).length + 1 = count.toNat := by
      have := slots_ne_nil_of_className? constants thisClass named
      omega
    refine ⟨⟨minor, major, constants, access, thisClass, superClass, interfaces, fields, methods⟩,
      ⟨?_, valid, named, above, beside, fieldsValid, methodsValid⟩, ?_, rfl⟩
    · rw [ClassLayout.poolSize, counted]
      exact count.toNat_lt
    · rw [ClassLayout.encodeParts, ClassLayout.poolSize, counted, UInt16.ofNat_toNat]
      simp only [List.append_assoc]
  · rintro ⟨layout, valid, rfl, rfl⟩
    have counted : layout.poolSize = (UInt16.ofNat (layout.poolSize + 1)).toNat - 1 := by
      rw [UInt16.toNat_ofNat', Nat.mod_eq_of_lt valid.poolSize]
      omega
    refine ⟨layout.minor, _, ⟨layout.major, _, ⟨_, _, _, ⟨_, layout.constants, counted,
      valid.constants, rfl, rfl⟩, ⟨layout.access, _, ⟨layout.thisClass, _, valid.thisClass,
        ⟨layout.superClass, _, valid.superClass, ⟨layout.interfaces, _, valid.interfaces,
          ⟨layout.fields, _, valid.fields, ⟨_, ⟨layout.methods, valid.methods, rfl, rfl⟩, rfl⟩,
          rfl⟩, rfl⟩, rfl⟩, rfl⟩, rfl⟩, rfl⟩, rfl⟩, ?_⟩
    simp [ClassLayout.encodeParts]

theorem readClass_reads : Reads readClass
    (Encodings ClassLayout.Valid ClassLayout.encode ClassLayout.projection) := by
  rw [readClass_eq]
  refine (Reads.u4.bind_encoded fun word => Reads.ite (word = magic) readParts_reads
    (Reads.throw (.badMagic word))).congr fun bytes c => ?_
  constructor
  · rintro ⟨word, _, ⟨rfl, layout, valid, rfl, rfl⟩ | ⟨_, impossible⟩, rfl⟩
    · exact ⟨layout, valid, rfl, rfl⟩
    · exact impossible.elim
  · rintro ⟨layout, valid, rfl, rfl⟩
    exact ⟨magic, _, .inl ⟨rfl, layout, valid, rfl, rfl⟩, rfl⟩

/-- A byte string is accepted exactly if it begins with a valid class file, and what is returned is
the projection of that class file. -/
theorem decode_accepts_iff (data : List UInt8) (c : ClassFile) :
    decode data = .ok c ↔ ∃ (layout : ClassLayout) (suffix : List UInt8),
      layout.Valid ∧ data = layout.encode ++ suffix ∧ c = layout.projection := by
  rw [decode, readClass_reads.runOn]
  constructor
  · rintro ⟨_, suffix, ⟨layout, valid, rfl, rfl⟩, rfl⟩
    exact ⟨layout, suffix, valid, rfl, rfl⟩
  · rintro ⟨layout, suffix, valid, rfl, rfl⟩
    exact ⟨layout.encode, suffix, ⟨layout, valid, rfl, rfl⟩, rfl⟩

end JarCensus.ClassFile
