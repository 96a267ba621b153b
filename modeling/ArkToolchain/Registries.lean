/-
Tables that number their keys.

A registry is the list of the keys it has seen, each once and in the order of their first
appearance.  The number of a key is its position; it never changes, for registries only grow at
the end.
-/
import Mathlib.Data.List.AList

namespace ArkToolchain

variable {K V : Type*} [DecidableEq K]

/-! ### Insertion -/

/-- `emplace` of a map, which keeps the value that is there. -/
def emplace (m : AList fun _ : K => V) (k : K) (v : V) : AList fun _ : K => V :=
  if k ∈ m then m else m.insert k v

theorem lookup_emplace {m : AList fun _ : K => V} {k : K} (v : V) (h : k ∉ m) (k' : K) :
    (emplace m k v).lookup k' = if k' = k then some v else m.lookup k' := by
  rw [emplace, if_neg h]
  split_ifs with hk
  · rw [hk, AList.lookup_insert]
  · rw [AList.lookup_insert_ne hk]

/-! ### Registries -/

def register (ks : List K) (k : K) : List K := if k ∈ ks then ks else ks ++ [k]

theorem prefix_register (ks : List K) (k : K) : ks <+: register ks k := by
  rw [register]
  split
  · exact List.prefix_rfl
  · exact List.prefix_append _ _

variable {ks : List K}

theorem mem_register {k k' : K} : k' ∈ register ks k ↔ k' ∈ ks ∨ k' = k := by
  rw [register]
  split
  next hk => exact ⟨.inl, fun h => h.elim id fun heq => heq ▸ hk⟩
  next => simp

theorem nodup_register (h : ks.Nodup) (k : K) : (register ks k).Nodup := by
  rw [register]
  split
  · exact h
  next hk => exact List.nodup_append_comm.mp (List.nodup_cons.mpr ⟨hk, h⟩)

theorem prefix_foldl_register (ks calls : List K) : ks <+: calls.foldl register ks := by
  induction calls generalizing ks with
  | nil => exact List.prefix_rfl
  | cons k calls ih => exact (prefix_register ks k).trans (ih _)

theorem mem_foldl_register {calls : List K} {k : K} :
    k ∈ calls.foldl register ks ↔ k ∈ ks ∨ k ∈ calls := by
  induction calls generalizing ks with
  | nil => simp
  | cons k' calls ih => rw [List.foldl_cons, ih, mem_register, List.mem_cons, or_assoc]

theorem nodup_foldl_register (h : ks.Nodup) (calls : List K) : (calls.foldl register ks).Nodup := by
  induction calls generalizing ks with
  | nil => exact h
  | cons k calls ih => exact ih (nodup_register h k)

end ArkToolchain
