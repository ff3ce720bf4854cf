import OpenCodeRouter.Scanner.Theorems.Completion
import OpenCodeRouter.Proxy.Theorems.ControlApi

namespace Registry

variable {r : Registry} {now : Time} {port : Int} {s : String} {b : Backend}
  {projectName projectPath version : String}

def Named (r : Registry) : Prop :=
  ∀ ⦃s b⦄, r.backends.lookup s = some b → b.projectName.data = Filepath.base b.projectPath.data

namespace Named

theorem new (d : Duration) : (Registry.new d).Named :=
  fun _ _ h => by simp [Registry.new, AList.lookup_empty] at h

theorem upsert (hn : r.Named) (h : projectName.data = Filepath.base projectPath.data) :
    (r.upsert now port projectName projectPath version).1.Named := by
  rcases upsert_cases r now port projectName projectPath version with ⟨e, -, -, hu⟩ | ⟨key, -, hu⟩ <;>
    rw [hu] <;> intro s' b' hb
  case inl =>
    rw [lookup_updateExisting] at hb
    split at hb
    · cases hb; exact h
    · exact hn (lookup_of_lookup_releasePort hb).1
  case inr =>
    rw [lookup_insertNew] at hb
    split at hb
    · cases hb; exact h
    · exact hn (lookup_of_lookup_releasePort hb).1

theorem drop (hn : r.Named) : (r.drop s b).Named := by
  intro s' b' hb
  rw [lookup_drop] at hb
  split at hb
  · cases hb
  · exact hn hb

end Named

end Registry

namespace Scanner

variable {sc : Scanner} {r : Registry} {p p' : Pass}

end Scanner

namespace Router

variable {sc : Scanner} {rt : Router} {s : String} {b : Backend}

end Router
