import Formula.Cache

/-!
# Requests to a cache

A request is answered in one of three ways: a program is found, or one is made and stored, or the
compilation fails and nothing is stored. What a cache finds is among the programs that it stores.
-/

namespace Formula

/-- What is found under a name is among the entries. -/
theorem mem_of_lookup {α : Type} {entries : List (String × α)} {name : String} {found : α}
    (hfound : entries.lookup name = some found) : (name, found) ∈ entries := by
  obtain ⟨later, earlier, hentries, _⟩ := List.lookup_eq_some_iff.mp hfound
  rw [hentries]
  exact List.mem_append_right later List.mem_cons_self

namespace Cache

variable {cache : Cache} {key : String} {compile : Unit → Traced Program} {program : Program}

theorem request_of_found (hfound : cache.find? key = some program) :
    cache.request key compile =
      (⟨.ok program, [.cacheHit key]⟩, { cache with hits := cache.hits + 1 }) := by
  rw [request, hfound]

theorem request_of_ok (habsent : cache.find? key = none)
    (hmade : (compile ()).outcome = .ok program) :
    cache.request key compile =
      (⟨.ok program, (compile ()).events ++ [.compiled key program.length]⟩,
        { cache with
          programs := (key, program) :: cache.programs
          compilations := cache.compilations + 1 }) := by
  rw [request, habsent]
  dsimp only
  rw [hmade]

theorem request_of_error {error : Error} (habsent : cache.find? key = none)
    (hmade : (compile ()).outcome = .error error) :
    cache.request key compile =
      (⟨.error error, (compile ()).events ++ [.compilationFailed key error]⟩,
        { cache with compilations := cache.compilations + 1 }) := by
  rw [request, habsent]
  dsimp only
  rw [hmade]

theorem mem_of_find? (hfound : cache.find? key = some program) :
    (key, program) ∈ cache.programs :=
  mem_of_lookup hfound

theorem contains_eq_true_iff :
    cache.contains key = true ↔ ∃ program, (key, program) ∈ cache.programs := by
  rw [contains, find?, List.lookup_isSome_iff]
  constructor
  · intro hentry
    obtain ⟨⟨stored, program⟩, hmem, hkey⟩ := hentry
    have heq : key = stored := by simpa using hkey
    exact ⟨program, heq ▸ hmem⟩
  · intro hentry
    obtain ⟨program, hmem⟩ := hentry
    exact ⟨_, hmem, beq_self_eq_true key⟩

theorem exists_find?_of_contains (hcontains : cache.contains key = true) :
    ∃ program, cache.find? key = some program := Option.isSome_iff_exists.mp hcontains

end Cache

end Formula
