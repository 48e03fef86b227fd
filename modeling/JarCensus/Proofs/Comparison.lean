import JarCensus.Comparison
import JarCensus.Proofs.Archive
import JarCensus.Proofs.Ranking
import JarCensus.Proofs.SelfExclusion
import JarCensus.Zip.Writer

/-! What a comparison answers. It is the ranked list of the source's methods that the destination
calls and does not declare, unless both archives are filed under one name: then the source's methods
are taken for the destination's own, and the answer is empty. -/
namespace JarCensus

open Zip.Writer (little)

/-- `usages` lists the used methods of `declared` that are not among `own`, by rank, with their
numbers of calls. -/
structure RanksUses (declared own : SignatureSet) (calls : Signature → Nat)
    (usages : List MethodUsage) : Prop where
  members : ∀ usage, usage ∈ usages ↔ usage.signature ∈ declared ∧ usage.signature ∉ own ∧
    usage.count = calls usage.signature ∧ 1 ≤ usage.count
  ordered : usages.Pairwise MethodUsage.Outranks

/-- No method of `declared` is called but those among `own`. -/
def Unused (declared own : SignatureSet) (calls : Signature → Nat) : Prop :=
  ∀ signature ∈ declared, signature ∉ own → calls signature = 0

section RanksUses

variable {declared own : SignatureSet} {calls : Signature → Nat} {usages usages' : List MethodUsage}

theorem RanksUses.unique (ranks : RanksUses declared own calls usages)
    (ranks' : RanksUses declared own calls usages') : usages = usages' := by
  refine eq_of_outranks ranks.ordered ranks'.ordered ?_
  intro usage
  rw [ranks.members, ranks'.members]

theorem ranksUses_nil_iff : RanksUses declared own calls [] ↔ Unused declared own calls := by
  constructor
  · intro ranks signature member foreign
    refine Nat.eq_zero_of_not_pos fun called => ?_
    exact absurd ((ranks.members ⟨signature, calls signature⟩).mpr ⟨member, foreign, rfl, called⟩)
      List.not_mem_nil
  · intro unused
    refine ⟨?_, .nil⟩
    intro usage
    simp only [List.not_mem_nil, false_iff]
    rintro ⟨member, foreign, counted, called⟩
    rw [counted, unused usage.signature member foreign] at called
    omega

theorem Unused.ranksUses_iff (unused : Unused declared own calls) :
    RanksUses declared own calls usages ↔ usages = [] := by
  constructor
  · intro ranks
    exact ranks.unique (ranksUses_nil_iff.mpr unused)
  · rintro rfl
    exact ranksUses_nil_iff.mpr unused

theorem Unused.self : Unused declared declared calls := by
  intro signature member foreign
  exact absurd member foreign

theorem Unused.orSelf (unused : Unused declared own calls) (P : Prop) [Decidable P] :
    Unused declared (if P then declared else own) calls := by
  by_cases holds : P
  · rw [if_pos holds]
    exact Unused.self
  · rw [if_neg holds]
    exact unused

/-- Leaving out all that is declared makes a difference as soon as there is a foreign use. -/
theorem ranksUses_agree_iff (P P' : Prop) [Decidable P] [Decidable P'] :
    (∀ usages, RanksUses declared (if P then declared else own) calls usages ↔
        RanksUses declared (if P' then declared else own) calls usages) ↔
      (P ↔ P') ∨ Unused declared own calls := by
  constructor
  · intro agree
    have empty := agree []
    rw [ranksUses_nil_iff, ranksUses_nil_iff] at empty
    by_cases holds : P <;> by_cases holds' : P'
    · exact .inl (iff_of_true holds holds')
    · rw [if_pos holds, if_neg holds'] at empty
      exact .inr (empty.mp Unused.self)
    · rw [if_neg holds, if_pos holds'] at empty
      exact .inr (empty.mpr Unused.self)
    · exact .inl (iff_of_false holds holds')
  · rintro (same | unused) usages
    · simp only [same]
    · rw [(unused.orSelf P).ranksUses_iff, (unused.orSelf P').ranksUses_iff]

theorem Tallies.ranked_eq_iff {counts : UsageCount} (tallied : Tallies own declared calls counts) :
    counts.ranked = usages ↔ RanksUses declared own calls usages := by
  rw [UsageCount.ranked_eq_iff]
  simp only [tallied.getElem?_eq_some_iff]
  constructor
  · rintro ⟨members, ordered⟩
    exact ⟨members, ordered⟩
  · intro ranks
    exact ⟨ranks.members, ranks.ordered⟩

end RanksUses

section Comparison

variable {files : Workspace} {reader : Zip.Reader} {source dest : Path}
  {sourceClasses destClasses : List ClassFile} {declared own : SignatureSet}

/-- The answers of a comparison whose archives can be loaded and indexed. The two paths matter only
by what is loaded from them and by whether they end in one name. -/
theorem compareArchives_eq_ok_iff (resolution : Resolution)
    (sourceLoaded : Archive.loadClasses files source reader = .ok sourceClasses)
    (destLoaded : Archive.loadClasses files dest reader = .ok destClasses)
    (sourceDeclares : declaredMethods sourceClasses = .ok declared)
    (destDeclares : declaredMethods destClasses = .ok own) (usages : List MethodUsage) :
    compareArchives files source dest resolution reader = .ok usages ↔
      Resolves destClasses declared (resolution.resolver destClasses) ∧
        RanksUses declared (if archiveKey dest = archiveKey source then declared else own)
          (callCount destClasses declared (resolution.resolver destClasses)) usages := by
  have excluded : ((MethodIndex.empty.insert (archiveKey source) declared).declaredIn
      (archiveKey dest)).getD own =
        if archiveKey dest = archiveKey source then declared else own := by
    rw [MethodIndex.declaredIn_insert, MethodIndex.declaredIn_empty]
    split <;> rfl
  rw [compareArchives, MethodIndex.empty.insertArchive_eq_ok sourceLoaded sourceDeclares,
    bind_eq_ok_iff]
  simp only [Except.ok.injEq, exists_eq_left', bind_eq_ok_iff, pure, Except.pure,
    MethodIndex.analyzeArchive_eq_ok_iff _ resolution destLoaded destDeclares,
    MethodIndex.all_insert_empty, excluded]
  constructor
  · rintro ⟨counts, ⟨resolves, tallied⟩, ranked⟩
    exact ⟨resolves, tallied.ranked_eq_iff.mp ranked⟩
  · rintro ⟨resolves, ranks⟩
    obtain ⟨counts, tallied⟩ := exists_tallies _ resolves
    exact ⟨counts, ⟨resolves, tallied⟩, tallied.ranked_eq_iff.mpr ranks⟩

/-- A comparison ranks the destination's foreign uses exactly if every call is resolved and either
the archives are filed under different names or there are no such uses. Other paths to the same
classes get the same answers exactly if they agree in whether their archives share a name, or if
this makes no difference. -/
theorem compareArchives_ranks_uses_iff (resolution : Resolution)
    (sourceLoaded : Archive.loadClasses files source reader = .ok sourceClasses)
    (destLoaded : Archive.loadClasses files dest reader = .ok destClasses)
    (sourceDeclares : declaredMethods sourceClasses = .ok declared)
    (destDeclares : declaredMethods destClasses = .ok own) :
    ((∃ usages, compareArchives files source dest resolution reader = .ok usages ∧
        RanksUses declared own
          (callCount destClasses declared (resolution.resolver destClasses)) usages) ↔
      Resolves destClasses declared (resolution.resolver destClasses) ∧
        (archiveKey dest ≠ archiveKey source ∨
          Unused declared own
            (callCount destClasses declared (resolution.resolver destClasses)))) ∧
    ∀ files' reader' source' dest',
      Archive.loadClasses files' source' reader' = .ok sourceClasses →
      Archive.loadClasses files' dest' reader' = .ok destClasses →
      ((∀ usages, compareArchives files source dest resolution reader = .ok usages ↔
          compareArchives files' source' dest' resolution reader' = .ok usages) ↔
        (archiveKey dest = archiveKey source ↔ archiveKey dest' = archiveKey source') ∨
          (Resolves destClasses declared (resolution.resolver destClasses) →
            Unused declared own
              (callCount destClasses declared (resolution.resolver destClasses)))) := by
  have answers :=
    compareArchives_eq_ok_iff resolution sourceLoaded destLoaded sourceDeclares destDeclares
  constructor
  · simp only [answers]
    constructor
    · rintro ⟨usages, ⟨resolves, answered⟩, ranks⟩
      refine ⟨resolves, ?_⟩
      by_cases same : archiveKey dest = archiveKey source
      · rw [if_pos same, Unused.self.ranksUses_iff] at answered
        rw [answered, ranksUses_nil_iff] at ranks
        exact .inr ranks
      · exact .inl same
    · rintro ⟨resolves, different | unused⟩
      · obtain ⟨counts, tallied⟩ := exists_tallies own resolves
        have ranks := tallied.ranked_eq_iff.mp rfl
        rw [if_neg different]
        exact ⟨counts.ranked, ⟨resolves, ranks⟩, ranks⟩
      · exact ⟨[], ⟨resolves, ranksUses_nil_iff.mpr (unused.orSelf _)⟩,
          ranksUses_nil_iff.mpr unused⟩
  · intro files' reader' source' dest' sourceLoaded' destLoaded'
    simp only [answers,
      compareArchives_eq_ok_iff resolution sourceLoaded' destLoaded' sourceDeclares destDeclares]
    by_cases resolves : Resolves destClasses declared (resolution.resolver destClasses)
    · simp only [resolves, true_and, true_implies]
      exact ranksUses_agree_iff _ _
    · simp [resolves]

end Comparison

/-- The class `U`, whose method `f()` has no body. -/
def calleeClass : List UInt8 :=
  [0xCA, 0xFE, 0xBA, 0xBE, 0, 0, 0, 52, 0, 5, 1, 0, 1, 0x55, 7, 0, 1, 1, 0, 1, 0x66,
    1, 0, 3, 0x28, 0x29, 0x56, 0, 0x21, 0, 2, 0, 0, 0, 0, 0, 0, 0, 1, 1, 9, 0, 3, 0, 4, 0, 0, 0, 0]

/-- The class `M`, whose method `f()` calls that one: its constants, and all that follows. -/
def callerConstants : List UInt8 :=
  [0xCA, 0xFE, 0xBA, 0xBE, 0, 0, 0, 52, 0, 10, 1, 0, 1, 0x4D, 7, 0, 1, 1, 0, 1, 0x66,
    1, 0, 3, 0x28, 0x29, 0x56, 1, 0, 4, 0x43, 0x6F, 0x64, 0x65, 1, 0, 1, 0x55, 7, 0, 6,
    12, 0, 3, 0, 4, 10, 0, 7, 0, 8]

@[inherit_doc callerConstants]
def callerMembers : List UInt8 :=
  [0, 0x21, 0, 2, 0, 0, 0, 0, 0, 0, 0, 1, 0, 9, 0, 3, 0, 4, 0, 1, 0, 5, 0, 0, 0, 16,
    0, 2, 0, 0, 0, 0, 0, 4, 0xB8, 0, 9, 0xB1, 0, 0, 0, 0, 0, 0]

/-- An archive whose one entry is the class `C.class`. -/
def storedArchive (checksum : UInt32) (content : List UInt8) : ByteArray :=
  let name : List UInt8 := [0x43, 0x2E, 0x63, 0x6C, 0x61, 0x73, 0x73]
  let fields := [20, 0, 0, 0, 0, 0, 0, 0, 0, 0] ++ little 4 checksum.toNat ++
    little 4 content.length ++ little 4 content.length ++ [7, 0, 0, 0]
  let entry := little 4 Zip.Marker.localHeader ++ fields ++ name ++ content
  let header := little 4 Zip.Marker.directoryHeader ++ [20, 0] ++ fields ++
    List.replicate 14 0 ++ name
  ⟨(entry ++ header ++ little 4 Zip.Marker.endRecord ++ [0, 0, 0, 0, 1, 0, 1, 0] ++
    little 4 header.length ++ little 4 entry.length ++ [0, 0]).toArray⟩

/-- Archives of either class in different directories, both named `lib.jar`. -/
def sameNames : Workspace :=
  let jar (directory : Name) : Place := [directory, [0x6C, 0x69, 0x62, 0x2E, 0x6A, 0x61, 0x72]]
  ⟨FileTree.empty.put [[0x61]] .directory
    |>.put (jar [0x61]) (.file (storedArchive 1632373149 calleeClass))
    |>.put [[0x62]] .directory
    |>.put (jar [0x62]) (.file (storedArchive 522156414 (callerConstants ++ callerMembers))), []⟩

/-- What is kept of either class. -/
def callee : ClassFile := ⟨0, 52, 0x21, "U", none, [], [⟨"U", 0x109, "f", "()V", []⟩]⟩

@[inherit_doc callee]
def caller : ClassFile :=
  ⟨0, 52, 0x21, "M", none, [],
    [⟨"M", 0x9, "f", "()V", [.invocation ⟨.static, "U", "f", "()V"⟩, .other 0xB1]⟩]⟩

/-- The archives of the two classes. -/
def calleeArchive : ByteArray := storedArchive 1632373149 calleeClass

@[inherit_doc calleeArchive]
def callerArchive : ByteArray := storedArchive 522156414 (callerConstants ++ callerMembers)

theorem loads_calleeArchive {files : Workspace} {path : Path}
    (found : Archive.bytes files path = .ok calleeArchive) :
    Archive.loadClasses files path = .ok [callee] := by
  apply Archive.loadClasses_of_stored files path calleeArchive ⟨calleeClass.toArray⟩
    ⟨"C.class", false, 0, 1632373149, 49, 0⟩ 37 callee found
  all_goals decide +kernel

theorem loads_callerArchive {files : Workspace} {path : Path}
    (found : Archive.bytes files path = .ok callerArchive) :
    Archive.loadClasses files path = .ok [caller] := by
  have intact : Zip.Crc32.checksum ⟨(callerConstants ++ callerMembers).toArray⟩ = 522156414 := by
    have half : callerConstants.foldl Zip.Crc32.feed 0xFFFFFFFF = 2466113086 := by decide +kernel
    rw [Zip.Crc32.checksum_append, half]
    decide +kernel
  apply Archive.loadClasses_of_stored files path callerArchive
    ⟨(callerConstants ++ callerMembers).toArray⟩ ⟨"C.class", false, 0, 522156414, 95, 0⟩ 37 caller
    found intact
  all_goals decide +kernel

theorem loads_callee : Archive.loadClasses sameNames (.ofString "a/lib.jar") = .ok [callee] :=
  loads_calleeArchive rfl

theorem loads_caller : Archive.loadClasses sameNames (.ofString "b/lib.jar") = .ok [caller] :=
  loads_callerArchive rfl

/-- The destination calls a method of the source once, but its archive has the source's name. -/
theorem compareArchives_misses_use :
    Archive.loadClasses sameNames (.ofString "a/lib.jar") = .ok [callee] ∧
    Archive.loadClasses sameNames (.ofString "b/lib.jar") = .ok [caller] ∧
    declaredMethods [callee] = .ok {"U#f()"} ∧ declaredMethods [caller] = .ok {"M#f()"} ∧
    Resolves [caller] {"U#f()"} .exact ∧
    ¬∃ usages,
      compareArchives sameNames (.ofString "a/lib.jar") (.ofString "b/lib.jar") .exact =
        .ok usages ∧
      RanksUses {"U#f()"} {"M#f()"} (callCount [caller] {"U#f()"} .exact) usages := by
  have calleeDeclares : declaredMethods [callee] = .ok {"U#f()"} := rfl
  have callerDeclares : declaredMethods [caller] = .ok {"M#f()"} := rfl
  have ranks := (compareArchives_ranks_uses_iff .exact loads_callee loads_caller calleeDeclares
    callerDeclares).1
  refine ⟨loads_callee, loads_caller, calleeDeclares, callerDeclares, ?_, ?_⟩
  · intro call member
    obtain rfl : call = ⟨.static, "U", "f", "()V"⟩ := List.mem_singleton.mp member
    exact ⟨"U#f()", rfl⟩
  · intro ranked
    rcases (ranks.mp ranked).2 with different | unused
    · exact different (by decide +kernel)
    · exact absurd (unused "U#f()" (by simp) (by decide)) (by decide)

end JarCensus
