import JarCensus.Archive
import JarCensus.Proofs.Results

/-! Archives that hold one class, stored as it is. -/
namespace JarCensus

namespace Zip.Crc32

theorem foldlM_loop_eq {α : Type} (f : α → UInt8 → α) (data : ByteArray) (stop : Nat)
    (within : stop ≤ data.size) (steps position : Nat) (state : α) :
    ByteArray.foldlM.loop (m := Id) f data stop within steps position state =
      Array.foldlM.loop (m := Id) f data.data stop within steps position state := by
  induction steps generalizing position state with
  | zero => rw [ByteArray.foldlM.loop, Array.foldlM.loop]
  | succ steps ih =>
    rw [ByteArray.foldlM.loop, Array.foldlM.loop]
    split
    · exact ih _ _
    · rfl

/-- The register takes in the bytes in order, so it can be stopped in between. -/
theorem checksum_append (front back : List UInt8) :
    checksum ⟨(front ++ back).toArray⟩ =
      back.foldl feed (front.foldl feed 0xFFFFFFFF) ^^^ 0xFFFFFFFF := by
  have folds (data : ByteArray) (register : UInt32) :
      data.foldl feed register = data.data.foldl feed register := by
    rw [ByteArray.foldl, ByteArray.foldlM, Array.foldl, Array.foldlM, dif_pos (Nat.le_refl _),
      dif_pos (Nat.le_refl _)]
    exact foldlM_loop_eq feed data _ _ _ _ _
  rw [checksum, folds, ← Array.foldl_toList, ← List.foldl_append]

end Zip.Crc32

/-- A class is loaded from the only entry of an archive, if the entry is stored and intact. All that
is asked of the bytes can be evaluated. -/
theorem Archive.loadClasses_of_stored (files : Workspace) (path : Path) (data content : ByteArray)
    (entry : Zip.Entry) (start : Nat) (cls : ClassFile)
    (found : Archive.bytes files path = .ok data)
    (intact : Zip.Crc32.checksum content = entry.checksum)
    (listed : (Zip.entries data).toOption = some [entry])
    (located : (Zip.locate data entry).toOption = some ⟨.stored, start⟩)
    (named : classSuffix.isSuffixOf entry.name.toList = true)
    (stored : data.extract start (start + entry.compressedSize) = content)
    (decoded : (ClassFile.decode content.toList).toOption = some cls) :
    Archive.loadClasses files path = .ok [cls] := by
  rw [toOption_eq_some_iff] at listed located decoded
  have members : Zip.Reader.standard.members data =
      .ok [.ok ⟨entry.name, fun _ => Zip.content data entry ⟨.stored, start⟩⟩] := by
    simp [Zip.Reader.standard, listed, Except.map, Zip.member, located, bind, Except.bind, pure,
      Except.pure]
  have read : Zip.content data entry ⟨.stored, start⟩ = .ok content := by
    simp [Zip.content, stored, intact, pure, Except.pure, bind, Except.bind]
  have visited : (ioDuring (.readContent entry.name path) (Zip.content data entry ⟨.stored, start⟩)
      >>= fun content => formatDuring (.decodeClass entry.name path)
        (ClassFile.decode content.toList)) = .ok cls := by
    rw [read, bind_eq_ok_iff]
    exact ⟨content, rfl, (formatDuring_eq_ok_iff ..).mpr decoded⟩
  rw [loadClasses, visitClasses, found, bind_eq_ok_iff]
  refine ⟨data, rfl, ?_⟩
  rw [members, bind_eq_ok_iff]
  refine ⟨_, rfl, ?_⟩
  rw [visitFrom]
  simp only [named, if_true, visited]
  rfl

end JarCensus
