import Mathlib.Data.List.Sort
import WorkflowAreas.Proofs.Header.Key

/-!
# The canonical line of a header

A key is not only an opening line; it opens an area with that key. So writing an opening line in normal form
twice is writing it once, and a key can be read back to compare two headers by their parts.

* `parse?_key`: what a key is read as, `Header.canonical`, has the lead, the name and the options of the header;
* `key_canonical`: its key is the one that was read.

Sorting can bring an id `IF` to the last place but one, where it announces a flag. So two headers of one key
need not say the same. Their canonical headers do: `key_eq_iff_canonical_eq`.
-/

namespace WorkflowAreas

namespace Clause

theorem ids_prefix (words : List (List Char)) : ids words <+: words := by
  rw [ids]
  split
  · exact List.take_prefix _ _
  · exact List.prefix_rfl

/-- In words with a flag clause at their end no id is read that stands in the clause. -/
theorem ids_append_prefix {ws : List (List Char)} (hne : ws ≠ []) (flag : Option (List Char)) :
    ids (ws ++ flag.toList.flatMap fun flag ↦ ["IF".toList, flag]) <+: ws := by
  cases flag with
  | none => simpa using ids_prefix ws
  | some flag =>
    have hpos : 0 < ws.length := List.length_pos_iff.2 hne
    rw [Option.toList_some, List.flatMap_singleton]
    have hflag : HasFlag (ws ++ ["IF".toList, flag]) := by
      constructor
      · simp only [List.length_append, List.length_cons, List.length_nil]
        omega
      · simp
    rw [ids, if_pos hflag]
    simp

end Clause

namespace Header

/-- The ids of a header in ascending order are what the sorting leaves. -/
theorem pairwise_sortedWorkflows (h : Header) : h.sortedWorkflows.Pairwise (· ≤ ·) :=
  List.pairwise_mergeSort' (· ≤ ·) h.workflows

/-- That and which ids there are determines them. -/
theorem sortedWorkflows_eq_iff {h : Header} {ids : List String} :
    h.sortedWorkflows = ids ↔ ids.Perm h.workflows ∧ ids.Pairwise (· ≤ ·) := by
  constructor
  · rintro rfl
    exact ⟨h.perm_sortedWorkflows, h.pairwise_sortedWorkflows⟩
  · rintro ⟨hperm, hasc⟩
    exact (h.perm_sortedWorkflows.trans hperm.symm).eq_of_pairwise' h.pairwise_sortedWorkflows hasc

/-- What the key of a header is read as. -/
def canonical (h : Header) : Header :=
  let words := h.keyWords.map String.toList
  { h with
    workflows := (Clause.ids words).map String.ofList
    flag := (Clause.flag? words).map String.ofList
    beginLine := h.key }

variable {g h : Header} {l m : String}

/-- **A key opens an area** with the lead, the name and the options of its header. -/
theorem parse?_key (hp : parse? l = some h) : parse? h.key = some h.canonical := by
  obtain ⟨s, -, hs, rfl⟩ := parse?_eq_some_iff_spelling.1 hp
  obtain ⟨t, ht, htext, hlead, hclause⟩ := Spelling.exists_key hs
  obtain ⟨honce, hsorted, hname, hwords⟩ := Clause.mk.inj hclause
  refine parse?_eq_some_iff_spelling.2 ⟨t, htext, ht, ?_⟩
  rw [canonical, Spelling.header, htext, hlead, hwords, honce, hsorted, hname, String.ofList_toList]
  rfl

theorem workflows_ne_nil (hp : parse? l = some h) : h.workflows ≠ [] := by
  obtain ⟨s, -, -, rfl⟩ := parse?_eq_some_iff_spelling.1 hp
  exact s.workflows_header_ne_nil

theorem map_toList_keyWords (h : Header) :
    h.keyWords.map String.toList = h.sortedWorkflows.map String.toList ++
      (h.flag.map String.toList).toList.flatMap fun flag ↦ ["IF".toList, flag] := by
  rw [keyWords, List.map_append]
  cases h.flag <;> simp

/-- The ids that a key is read to have are a front part of the sorted ids of the header. -/
theorem isPrefix_workflows_canonical (hp : parse? l = some h) :
    h.canonical.workflows <+: h.sortedWorkflows := by
  have hne : h.sortedWorkflows.map String.toList ≠ [] := fun h0 ↦
    workflows_ne_nil hp ((List.map_eq_nil_iff.1 h0) ▸ h.perm_sortedWorkflows).nil_eq.symm
  have hids := (Clause.ids_append_prefix hne (h.flag.map String.toList)).map String.ofList
  rw [← map_toList_keyWords, List.map_map] at hids
  simpa [canonical, Function.comp_def] using hids

/-- So they ascend as they are written. -/
theorem sortedWorkflows_canonical (hp : parse? l = some h) :
    h.canonical.sortedWorkflows = h.canonical.workflows :=
  sortedWorkflows_eq_iff.2 ⟨List.Perm.refl _,
    h.pairwise_sortedWorkflows.sublist (isPrefix_workflows_canonical hp).sublist⟩

theorem keyWords_canonical (hp : parse? l = some h) : h.canonical.keyWords = h.keyWords := by
  have hwords := congrArg (List.map String.ofList)
    (Clause.ids_append_flag? (h.keyWords.map String.toList))
  rw [List.map_append, List.map_map] at hwords
  rw [keyWords, sortedWorkflows_canonical hp, canonical]
  cases hf : Clause.flag? (h.keyWords.map String.toList) <;> simpa [hf, Function.comp_def] using hwords

/-- **Canonicalising twice is canonicalising once.** -/
theorem key_canonical (hp : parse? l = some h) : h.canonical.key = h.key :=
  (key_eq_key_iff_keyWords (parse?_key hp) hp).2 ⟨rfl, rfl, rfl, rfl, keyWords_canonical hp⟩

/-- A key is put together from the parts of a header. -/
theorem key_congr (hlead : g.lead = h.lead) (hname : g.name = h.name)
    (hids : g.workflows = h.workflows) (honce : g.once = h.once) (hsorted : g.sorted = h.sorted)
    (hflag : g.flag = h.flag) : g.key = h.key := by
  rw [key, key, sortedWorkflows, sortedWorkflows, hlead, hname, hids, honce, hsorted, hflag]

/-- **A key is a marker with the same key.** An opening line in normal form is read as a header with the lead,
the name and the options of the original, and has itself for its key. Two opening lines have one key exactly
if their normal forms are read as one header, for which it is enough that these have the same parts. -/
theorem key_eq_iff_canonical_eq (hg : parse? l = some g) (hh : parse? m = some h) :
    ∃ c d, parse? g.key = some c ∧ parse? h.key = some d ∧
      (c.lead = g.lead ∧ c.name = g.name ∧ c.once = g.once ∧ c.sorted = g.sorted) ∧ c.key = g.key ∧
      (g.key = h.key ↔ c = d) ∧
      (g.key = h.key ↔ c.lead = d.lead ∧ c.name = d.name ∧ c.workflows = d.workflows ∧
        c.once = d.once ∧ c.sorted = d.sorted ∧ c.flag = d.flag) := by
  have hread (hkey : g.key = h.key) : g.canonical = h.canonical := by
    have hline := parse?_key hg
    rw [hkey, parse?_key hh] at hline
    exact (Option.some.inj hline).symm
  have hparts (hlead : g.canonical.lead = h.canonical.lead) (hname : g.canonical.name = h.canonical.name)
      (hids : g.canonical.workflows = h.canonical.workflows)
      (honce : g.canonical.once = h.canonical.once) (hsorted : g.canonical.sorted = h.canonical.sorted)
      (hflag : g.canonical.flag = h.canonical.flag) : g.key = h.key := by
    rw [← key_canonical hg, ← key_canonical hh]
    exact key_congr hlead hname hids honce hsorted hflag
  refine ⟨g.canonical, h.canonical, parse?_key hg, parse?_key hh, ⟨rfl, rfl, rfl, rfl⟩,
    key_canonical hg, ⟨hread, fun heq ↦ ?_⟩, fun hkey ↦ ?_,
    fun ⟨hlead, hname, hids, honce, hsorted, hflag⟩ ↦ hparts hlead hname hids honce hsorted hflag⟩
  · rw [← key_canonical hg, heq, key_canonical hh]
  · rw [hread hkey]
    exact ⟨rfl, rfl, rfl, rfl, rfl, rfl⟩

/-- An id that sorting turns into the sign of a flag, and a line that has the flag from the beginning. -/
theorem key_eq_iff_canonical_eq_sample :
    ∃ g h c d, parse? "# BEGIN WORKFLOW AREA a FOR Z A IF" = some g ∧
      parse? "# BEGIN WORKFLOW AREA a FOR A  IF Z " = some h ∧ g.flag ≠ h.flag ∧
      parse? g.key = some c ∧ parse? h.key = some d ∧ c.key = g.key ∧ c = d := by
  let g : Header := ⟨"# ", "a", ["Z", "A", "IF"], false, false, none,
    "# BEGIN WORKFLOW AREA a FOR Z A IF"⟩
  let h : Header := ⟨"# ", "a", ["A"], false, false, some "Z", "# BEGIN WORKFLOW AREA a FOR A  IF Z "⟩
  have hg : parse? "# BEGIN WORKFLOW AREA a FOR Z A IF" = some g := by decide
  have hh : parse? "# BEGIN WORKFLOW AREA a FOR A  IF Z " = some h := by decide
  have hgids : g.sortedWorkflows = ["A", "IF", "Z"] := sortedWorkflows_eq_iff.2 (by decide)
  have hhids : h.sortedWorkflows = ["A"] := sortedWorkflows_eq_iff.2 (by decide)
  have hkey : g.key = h.key := by
    rw [key, key, hgids, hhids]
    decide
  obtain ⟨c, d, hc, hd, -, hckey, hsame, -⟩ := key_eq_iff_canonical_eq hg hh
  exact ⟨g, h, c, d, hg, hh, (Option.some_ne_none "Z").symm, hc, hd, hckey, hsame.1 hkey⟩

end Header

end WorkflowAreas
