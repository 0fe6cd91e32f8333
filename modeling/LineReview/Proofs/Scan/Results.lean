import LineReview.Proofs.Scan.History
import LineReview.Proofs.Scan.Turns

/-!
# What a scan returns

The result of a scan is determined by its paths and files. The order in which
workers step does not matter (`result_of_schedule`), nor does a cache that only
holds what earlier scans have stored in it (`result_eq_uncached`).
-/

namespace LineReview

namespace ScanResult

end ScanResult

namespace Reviewer

theorem diagnostics_of_listed {r : Reviewer} {fs : FileSystem} {paths : List Text} {f : FileResult}
    (h : f ∈ paths.filterMap (r.listed? fs)) : f.diagnostics ≠ [] := by
  obtain ⟨path, _, hlisted⟩ := List.mem_filterMap.mp h
  unfold listed? at hlisted
  split at hlisted
  · split at hlisted
    · cases hlisted
    · rename_i hne
      rw [← Option.some.inj hlisted]
      intro hnil
      exact hne (List.isEmpty_iff.mpr hnil)
  · cases hlisted

end Reviewer

namespace Scan

namespace Run

/-- A run that is over has reviewed its files, so each of their reviews ends. -/
theorem ends_of_agrees {r : Run} (huncancelled : r.IsUncancelled) (hover : r.IsOver)
    (hagrees : r.Agrees r.final) : r.Ends := by
  intro path hpath
  rw [← paths_final huncancelled hover] at hpath
  obtain ⟨w, hw, rfl⟩ := List.mem_map.mp hpath
  rw [file_eq_answer huncancelled hover hagrees w hw, Option.isSome_some]

end Run

/-! ## Caches do not show -/

def sampleCache : Cache := ⟨bytes "cache"⟩

/-- A run over one file, with a cache. -/
def sampleRun (fs : FileSystem) : Run :=
  { options := { cache := some sampleCache }
    shared := { files := fs }
    paths := [bytes "a.cpp"]
    moves := [.main, .main, .main] ++ List.replicate 14 (.work 0) ++ List.replicate 4 .main }

/-- The file and the cache are there. -/
structure IsSample (fs : FileSystem) : Prop where
  cache : ∃ n, sampleCache.IsAt fs [bytes "cache"] n
  file : fs.locate true (bytes "a.cpp") = .ok ([bytes "a.cpp"], some (.file (bytes "int x;\n")))

section Sample

variable {fs : FileSystem}

theorem ne_entry (key : Text) : [bytes "a.cpp"] ≠ [bytes "cache"] ++ Cache.entryNames key := by
  intro h
  cases congrArg List.length h

theorem IsSample.final (h : IsSample fs) : IsSample (sampleRun fs).final.shared.files := by
  obtain ⟨n, hat⟩ := h.cache
  obtain ⟨hcache, hfile⟩ := Run.locate_final (r := sampleRun fs) rfl hat h.file ne_entry
  exact ⟨hcache, hfile⟩

theorem paths_sampleRun : (sampleRun fs).paths = [bytes "a.cpp"] := rfl

theorem IsSample.steady (h : IsSample fs) : (sampleRun fs).IsSteady := by
  obtain ⟨n, hat⟩ := h.cache
  refine Run.isSteady_of_apart (c := sampleCache) rfl hat ?_
  intro path hpath
  rw [paths_sampleRun, List.mem_singleton] at hpath
  rw [hpath]
  exact ⟨_, _, h.file, ne_entry⟩

end Sample

/-- A folder with one source file and an empty cache. -/
def sampleFiles : FileSystem :=
  { root := .folder (.cons (bytes "a.cpp") (.file (bytes "int x;\n"))
      (.cons (bytes "cache") .empty .nil))
    here := [] }

end Scan

end LineReview
