import JarCensus.Proofs.CrossUsage
import JarCensus.Proofs.Text.Search
import JarCensus.Report

/-! The lines of a report. Every signature that an analysis finds used is that of a declared method,
so none is empty, and the lines are the signatures, each with a line end after it. -/
namespace JarCensus

theorem Signature.ofRaw_ne_empty {raw : String} {signature : Signature}
    (accepted : Signature.ofRaw raw = .ok signature) : signature ≠ "" := by
  rw [Signature.ofRaw] at accepted
  by_cases bare : (raw.toList.dropWhile (· != '(')).isEmpty = true
  · simp [bare, bind, Except.bind] at accepted
  simp only [bare, Bool.false_eq_true, if_false, bind_eq_ok_iff] at accepted
  obtain ⟨arguments, -, assembled⟩ := accepted
  cases cut : Text.splitLast? '.' (Signature.flatten (raw.toList.takeWhile (· != '('))) with
  | none => simp [cut] at assembled
  | some parts =>
    simp only [cut, pure, Except.pure, Except.ok.injEq] at assembled
    have marked : '#' ∈ signature.toList := by simp [← assembled]
    rintro rfl
    simp at marked

theorem Declares.ne_empty {files : Workspace} {reader : Zip.Reader} {path : Path}
    {declared : SignatureSet} (declares : Declares files reader path declared)
    {signature : Signature} (member : signature ∈ declared) : signature ≠ "" := by
  obtain ⟨classes, -, collected⟩ := declares
  obtain ⟨method, -, named⟩ := (((declaredMethods_eq_ok_iff ..).mp collected).2 signature).mp member
  exact Signature.ofRaw_ne_empty named

/-- Every indexed signature is one that a source declares. -/
theorem exists_declares_of_mem_all {files : Workspace} {reader : Zip.Reader} {sources : List Path}
    {index : MethodIndex} (built : MethodIndex.build files sources reader = .ok index)
    {signature : Signature} (indexed : signature ∈ index.all) :
    ∃ path declared, Declares files reader path declared ∧ signature ∈ declared := by
  obtain ⟨filings, filed, rfl⟩ := (build_eq_ok_iff ..).mp built
  obtain ⟨archive, methods, last, member⟩ :=
    (MethodIndex.mem_all_fileAll_empty_iff filings signature).mp indexed
  obtain ⟨after, before, split, -⟩ := List.lookup_eq_some_iff.mp last
  have kept : (archive, methods) ∈ filings := by
    rw [← List.mem_reverse, split]
    exact List.mem_append_right after List.mem_cons_self
  have accepted : Except.ok (archive, methods) ∈ sources.map (filing files reader) := by
    rw [filed]
    exact List.mem_map_of_mem kept
  obtain ⟨path, -, same⟩ := List.mem_map.mp accepted
  exact ⟨path, methods, ((filing_eq_ok_iff ..).mp same).2, member⟩

theorem crossUsage_ne_empty {files : Workspace} {sourceDir destDir : Path}
    {resolution : Resolution} {threads : Option Nat} {tools : Tools} {used : List Signature}
    (found : crossUsage files sourceDir destDir resolution threads tools = .ok used) :
    ∀ signature ∈ used, signature ≠ "" := by
  simp only [crossUsage, bind_eq_ok_iff, pure, Except.pure, Except.ok.injEq] at found
  obtain ⟨report, reported, rfl⟩ := found
  obtain ⟨-, sources, index, dests, -, built, -, entries⟩ :=
    (crossUsageReport_eq_ok_iff ..).mp reported
  intro signature member
  obtain ⟨usage, among, listed⟩ := List.mem_flatMap.mp member
  have entry : signature ∈ usage.counts := Std.ExtTreeMap.mem_keys.mp listed
  obtain ⟨source, -, -, classes, -, analyzed⟩ := exists_entryOf_of_mem entries among
  obtain ⟨own, tallied⟩ := MethodIndex.exists_tallies_of_analyze analyzed
  have indexed : signature ∈ index.all := ((tallied.mem_iff signature).mp entry).1
  obtain ⟨path, declared, declares, declaring⟩ := exists_declares_of_mem_all built indexed
  exact declares.ne_empty declaring

namespace Report

theorem lines_eq_join {texts : List String} (named : ∀ text ∈ texts, text ≠ "") :
    lines texts = String.join (texts.map (· ++ "\n")) := by
  cases texts with
  | nil => rfl
  | cons text texts =>
    have first : text ≠ "" := named text List.mem_cons_self
    have printed : String.intercalate "\n" (text :: texts) ≠ "" := by
      cases texts with
      | nil => simpa using first
      | cons next texts =>
        rw [ne_eq, ← String.toList_inj, String.toList_intercalate]
        simp [List.intercalate_cons_cons]
    rw [lines]
    simp only [printed, if_false]
    have joined := Text.intercalate_append_self "\n".toList
      (List.cons_ne_nil text.toList (texts.map String.toList))
    apply String.toList_inj.mp
    simpa [List.flatMap_map] using joined

end Report

end JarCensus
