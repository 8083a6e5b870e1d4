import TransferLifecycle.Proofs.SnapshotBytes
import TransferLifecycle.Proofs.TableReadBack

set_option autoImplicit false

/- A snapshot can be read back: scanning its bytes gives the header and a row for each process, with
the texts that were written, in the one order by ids that keeps processes of one id as they came. So
the order of the processes matters to a snapshot only where ids repeat. -/
namespace TransferLifecycle

namespace Text

/-- The bytes of a text are decoded to the text. -/
theorem decode?_encode (text : String) : decode? (encode text) = some text := by
  rw [decode?, encode_eq, Array.toArray_toList]
  exact dif_pos text.isValidUTF8

end Text

namespace Snapshot

theorem length_row {processes : List TransferProcess} {row : List String}
    (member : row ∈ rows processes) : row.length = 4 := by
  rcases List.mem_cons.1 member with rfl | listed
  · rfl
  · obtain ⟨p, -, rfl⟩ := List.mem_map.1 listed
    rfl

/-- A snapshot begins with a letter, so not with a byte order mark. -/
theorem contents_head (processes : List TransferProcess) :
    ∃ rest, contents processes = 0x70 :: rest := by
  have encoded : header.map Text.encode = header.map fun text => text.toByteArray.data.toList :=
    List.map_congr_left fun text _ => Text.encode_eq text
  obtain ⟨first, begins⟩ :
      ∃ rest, (Csv.rowChunks (header.map Text.encode)).flatten = 0x70 :: rest := by
    rw [encoded]
    exact ⟨_, rfl⟩
  rw [contents, chunks, rows, List.flatMap_cons, List.flatten_append, begins]
  exact ⟨_, rfl⟩

/-- Scanning a snapshot gives the bytes of its rows. -/
theorem fields_scan_contents (processes : List TransferProcess) :
    (Csv.scan (contents processes)).map (·.fields) =
      (rows processes).map fun row => row.map Text.encode := by
  obtain ⟨rest, begins⟩ := contents_head processes
  have wide : ∀ row ∈ (rows processes).map fun row => row.map Text.encode, 2 ≤ row.length := by
    intro row member
    obtain ⟨texts, listed, rfl⟩ := List.mem_map.1 member
    rw [List.length_map, length_row listed]
    decide
  have table := Csv.rowsFrom_table wide
  rw [List.flatMap_map] at table
  rw [begins, Csv.fields_scan (by decide), ← begins]
  exact table

/-- A snapshot is read back as it was meant, whatever the texts are: the header and a row for each
process, in the order of the ids, where processes of one id keep their order. Where the ids differ,
the processes may come in any order. -/
theorem read_back (processes : List TransferProcess) :
    ∃ ordered : List TransferProcess, ordered.Perm processes ∧
      (ordered.Pairwise fun a b => ¬ b.id < a.id) ∧
      (∀ id, ordered.filter (·.id == id) = processes.filter (·.id == id)) ∧
      write processes .unlimited = (.ok (), ⟨none, contents processes⟩) ∧
      ((Csv.scan (contents processes)).map fun row => row.fields.map Text.decode?) =
        (["process", "state", "state_count", "error_detail"] :: ordered.map fun p =>
          [p.id.text, p.state.name, toString p.stateCount.toNat, p.errorDetail.getD ""]).map
          (·.map some) ∧
      ∀ others : List TransferProcess, others.Perm processes → (processes.map (·.id)).Nodup →
        ∀ sink, write others sink = write processes sink := by
  refine ⟨sorted processes, sorted_perm processes, sorted_pairwise processes,
    sorted_filter processes, write_of_unlimited rfl processes, ?_, ?_⟩
  · have texts : ∀ row : List String, (row.map Text.encode).map Text.decode? = row.map some := by
      intro row
      rw [List.map_map]
      exact List.map_congr_left fun text _ => Text.decode?_encode text
    have scanned := congrArg (List.map (List.map Text.decode?)) (fields_scan_contents processes)
    rw [List.map_map, List.map_map] at scanned
    refine scanned.trans ?_
    exact List.map_congr_left fun row _ => texts row
  · intro others same distinct sink
    simp only [write, chunks, rows, sorted_of_perm same distinct]

end Snapshot

end TransferLifecycle
