/-
# What the current views show

The tables get the rows of observations again and again and in any order: batches are
sent again, split and retried. `Inserted` says only that they get the row of each
inventory observation at least once, and no other rows. When the numbers of the
observations grow, and the times of those about one entity do not go back, the views
do not see any of that: an entity is shown as its last observation has it
(`view_of_last`), or not at all if there is none (`view_of_none`).

The last observation has the greatest version of its entity, so `FINAL` keeps its row
whatever other rows share the sorting key, and nothing ranks above it in the view.
-/
import KubeCost.Ingestion.Resend

namespace KubeCost
namespace Ingestion

open Replacing

/-- A row of the observation, from a batch of this tenant and cluster. -/
def RowIn (tenantId clusterId : String) (o : Observation) (row : MappedRow) : Prop :=
  ∃ batch, batch.tenantId = tenantId ∧ batch.clusterId = clusterId ∧
    mapObservation batch o = .ok (some row)

/-- The inserts, in any order and number: rows of the observations, and at least one of
each inventory observation. -/
structure Inserted (tenantId clusterId : String) (observations : List Observation)
    (rows : List MappedRow) : Prop where
  sound : ∀ row ∈ rows, ∃ o ∈ observations, RowIn tenantId clusterId o row
  complete : ∀ o ∈ observations, IsInventory o → ∃ row ∈ rows, RowIn tenantId clusterId o row

/-- The observation is about this entity. -/
def Concerns (entity : String × List Value) (o : Observation) : Prop :=
  o.payload.map entityOf = some entity

instance (entity : String × List Value) (o : Observation) : Decidable (Concerns entity o) :=
  inferInstanceAs (Decidable (_ = _))

/-- The last observation about an entity. -/
def lastAbout (entity : String × List Value) (observations : List Observation) : Option Observation :=
  observations.reverse.find? fun o => decide (Concerns entity o)

/-- What the view of its table shows about an entity of a cluster. -/
def view (rows : List MappedRow) (tenantId clusterId : String) (entity : String × List Value) :
    List MappedRow :=
  (current rows entity.1).filter
    (·.entity = (entity.1, .string tenantId :: .string clusterId :: entity.2))

/-- Observations whose numbers grow, and whose times do not go back about any entity. -/
structure Chronological (observations : List Observation) : Prop where
  sequences : observations.Pairwise fun o o' => o.sequence < o'.sequence
  times : ∀ o ∈ observations, IsInventory o → ∃ t, o.observedAt = some t ∧ t.isValid = true
  order : observations.Pairwise fun o o' => ∀ entity, entity.1 ≠ "" → Concerns entity o →
    Concerns entity o' → ∀ t t', o.observedAt = some t → o'.observedAt = some t' → t.millis ≤ t'.millis

theorem identity_fst (payload : Payload) : (identity payload).1 = (entityOf payload).1 := by
  cases payload <;> rfl

theorem entityOf_eq_of_identity {p p' : Payload} (h : identity p = identity p') :
    entityOf p = entityOf p' := by
  cases p <;> cases p' <;> simp_all [identity, entityOf]

/-- The row of an observation, with what the views look at. -/
theorem RowIn.columns {t c : String} {o : Observation} {row : MappedRow} (h : RowIn t c o row) :
    ∃ batch payload, batch.tenantId = t ∧ batch.clusterId = c ∧ o.payload = some payload ∧
      IsInventory o ∧ mapPayload (rowBase batch o) o.payload = .ok (some row) ∧
      Columns (rowBase batch o) payload row := by
  obtain ⟨batch, ht, hc, hmap⟩ := h
  obtain ⟨-, hmap⟩ := mapObservation_eq_ok.mp hmap
  rcases hp : o.payload with _ | payload
  · rw [hp] at hmap
    cases hmap
  · rw [hp] at hmap
    have hinventory : payload.isInventory = true := by
      cases payload <;> first | rfl | cases hmap
    exact ⟨batch, payload, ht, hc, rfl, ⟨payload, hp, hinventory⟩, hmap, mapPayload_columns hmap⟩

section

variable {t c : String} {os : List Observation} {rows : List MappedRow} {o o' : Observation}
  {row row' : MappedRow} {entity : String × List Value}

theorem lastAbout_eq_some (h : lastAbout entity os = some o) : Concerns entity o ∧
    ∃ before after, os = before ++ o :: after ∧ ∀ o' ∈ after, ¬ Concerns entity o' := by
  obtain ⟨hconcerns, after, before, hsplit, hafter⟩ := List.find?_eq_some_iff_append.mp h
  refine ⟨of_decide_eq_true hconcerns, before.reverse, after.reverse, ?_, fun o' ho' hin => ?_⟩
  · rw [← List.reverse_reverse os, hsplit]
    simp
  · have := hafter o' (List.mem_reverse.mp ho')
    rw [decide_eq_true hin] at this
    exact absurd this (by decide)

/-- The other observations about the entity have lower numbers, and no later times. -/
theorem Chronological.below_last (hos : Chronological os) (hentity : entity.1 ≠ "")
    (hlast : lastAbout entity os = some o) (ho' : o' ∈ os) (hconcerns : Concerns entity o') :
    o' = o ∨ o'.sequence < o.sequence ∧
      ∀ t t', o'.observedAt = some t → o.observedAt = some t' → t.millis ≤ t'.millis := by
  obtain ⟨ho, before, after, rfl, hafter⟩ := lastAbout_eq_some hlast
  rcases List.mem_append.mp ho' with h | h
  · have hseq := (List.pairwise_append.mp hos.sequences).2.2 o' h o List.mem_cons_self
    have htime := (List.pairwise_append.mp hos.order).2.2 o' h o List.mem_cons_self
    exact .inr ⟨hseq, htime entity hentity hconcerns ho⟩
  · rcases List.mem_cons.mp h with h | h
    · exact .inl h
    · exact absurd hconcerns (hafter o' h)

/-- A stored row, with the observation it comes from. -/
theorem Inserted.of_mem (hin : Inserted t c os rows)
    (h : row ∈ (rows.filter (·.table = entity.1)).map MappedRow.stored) :
    ∃ o ∈ os, ∃ row', RowIn t c o row' ∧ row'.stored = row := by
  obtain ⟨row', hmem, rfl⟩ := List.mem_map.mp h
  obtain ⟨o, ho, hrow⟩ := hin.sound row' (List.mem_of_mem_filter hmem)
  exact ⟨o, ho, row', hrow, rfl⟩

/-- The entity of a row is the one that its observation is about. -/
theorem RowIn.concerns_iff (h : RowIn t c o row) : Concerns entity o ↔
    row.stored.entity = (entity.1, .string t :: .string c :: entity.2) := by
  obtain ⟨batch, payload, rfl, rfl, hp, -, -, hcolumns⟩ := h.columns
  rw [hcolumns.entity, Concerns, hp, Option.map_some, Option.some.injEq, Prod.ext_iff]
  simp [rowBase]

/-- All rows of a dated observation are stored alike. -/
theorem Chronological.stored_eq (hos : Chronological os) (ho : o ∈ os) (h : RowIn t c o row)
    (h' : RowIn t c o row') : row.stored = row'.stored := by
  obtain ⟨batch, -, rfl, rfl, -, hinventory, hmap, -⟩ := h.columns
  obtain ⟨batch', -, ht, hc, -, -, hmap', -⟩ := h'.columns
  have htime : (rowBase batch o).observedAt = (rowBase batch' o).observedAt :=
    observedAtOf_valid _ _ (hos.times o ho hinventory)
  have htruncate := congrArg Timestamp.truncate htime
  exact mapPayload_stored ht.symm hc.symm htruncate rfl rfl hmap hmap'

/-- No row of the entity ranks above one of its last observation, except as a copy. -/
theorem Chronological.highest (hos : Chronological os) (hentity : entity.1 ≠ "")
    (hlast : lastAbout entity os = some o) (ho : o ∈ os) (hrow : RowIn t c o row) (ho' : o' ∈ os)
    (hrow' : RowIn t c o' row') (hconcerns : Concerns entity o')
    (hrank : row.stored.version ≤ row'.stored.version ∨ row.stored.rank ≤ row'.stored.rank) :
    row'.stored = row.stored := by
  obtain ⟨batch, payload, -, -, -, hinventory, -, hcolumns⟩ := hrow.columns
  obtain ⟨batch', payload', -, -, -, hinventory', -, hcolumns'⟩ := hrow'.columns
  rcases hos.below_last hentity hlast ho' hconcerns with rfl | ⟨hseq, htime⟩
  · exact hos.stored_eq ho hrow' hrow
  · obtain ⟨τ, hτ, hvalid⟩ := hos.times o ho hinventory
    obtain ⟨τ', hτ', hvalid'⟩ := hos.times o' ho' hinventory'
    have hversion : row'.stored.version < row.stored.version := by
      rw [hcolumns.version, hcolumns'.version]
      exact hseq
    have hobserved : row'.stored.observedAt ≤ row.stored.observedAt := by
      rw [hcolumns.observedAt, hcolumns'.observedAt]
      simpa [rowBase, observedAtOf, hτ, hτ', hvalid, hvalid'] using htime τ' τ hτ' hτ
    have hlt : row'.stored.rank < row.stored.rank := by
      rcases hobserved.lt_or_eq with hlt | heq
      · exact Prod.Lex.toLex_lt_toLex.mpr (.inl hlt)
      · exact Prod.Lex.toLex_lt_toLex.mpr (.inr ⟨heq, Prod.Lex.toLex_lt_toLex.mpr (.inl hversion)⟩)
    rcases hrank with h | h
    · exact absurd hversion (not_lt.mpr h)
    · exact absurd hlt (not_lt.mpr h)

/-- Under `FINAL`, the row of the last observation is there. -/
theorem Inserted.mem_selectFinal (hin : Inserted t c os rows) (hos : Chronological os)
    (hentity : entity.1 ≠ "") (hlast : lastAbout entity os = some o) (ho : o ∈ os)
    (hrow : RowIn t c o row) (hmem : row ∈ rows) : row.stored ∈ selectFinal rows entity.1 := by
  have hconcerns := (lastAbout_eq_some hlast).1
  have htable : row.table = entity.1 := congrArg Prod.fst (hrow.concerns_iff.mp hconcerns)
  have hstored : row.stored ∈ (rows.filter (·.table = entity.1)).map MappedRow.stored :=
    List.mem_map_of_mem (List.mem_filter.mpr ⟨hmem, decide_eq_true htable⟩)
  refine List.mem_of_find?_eq_some (find?_of_highest byVersion_trans byVersion_total hstored ?_)
  intro m hm hkey hle
  obtain ⟨o', ho', row', hrow', rfl⟩ := hin.of_mem hm
  obtain ⟨batch, payload, rfl, rfl, hp, -, -, hcolumns⟩ := hrow.columns
  obtain ⟨batch', payload', ht, hc, hp', -, -, hcolumns'⟩ := hrow'.columns
  have hidentity := ((hcolumns'.sortingKey_eq_iff hcolumns ht hc).mp hkey).1
  refine hos.highest hentity hlast ho hrow ho' hrow' ?_ (.inl (of_decide_eq_true hle))
  rw [Concerns, hp', Option.map_some, entityOf_eq_of_identity hidentity, ← Option.map_some, ← hp]
  exact hconcerns

/-- The rows of an entity that the view chooses from. -/
theorem view_eq : view rows t c entity =
    ((final MappedRow.entity byObservation (selectFinal rows entity.1)).find?
      (·.entity = (entity.1, .string t :: .string c :: entity.2))).toList.filter
        (·.value "operation" = .string "upsert") := by
  rw [view, current, List.filter_comm, filter_final]

/-- **An entity is shown as its last observation has it**, if that is no deletion. -/
theorem view_of_last (hin : Inserted t c os rows) (hos : Chronological os) (hentity : entity.1 ≠ "")
    (hlast : lastAbout entity os = some o) : ∃ payload row, o.payload = some payload ∧
      RowIn t c o row ∧
      view rows t c entity = if getOperation payload.record = .upsert then [row.stored] else [] := by
  obtain ⟨hconcerns, before, after, hsplit, -⟩ := lastAbout_eq_some hlast
  have ho : o ∈ os := by
    rw [hsplit]
    exact List.mem_append_right _ List.mem_cons_self
  have hinventory : IsInventory o := by
    obtain ⟨payload, hp, heq⟩ := Option.map_eq_some_iff.mp hconcerns
    refine ⟨payload, hp, isInventory_iff.mpr ?_⟩
    rw [identity_fst, heq]
    exact hentity
  obtain ⟨row, hmem, hrow⟩ := hin.complete o ho hinventory
  obtain ⟨batch, payload, -, -, hp, -, -, hcolumns⟩ := hrow.columns
  obtain ⟨operation, hname, hoperation⟩ := hcolumns.operation
  refine ⟨payload, row, hp, hrow, ?_⟩
  have hfind : (final MappedRow.entity byObservation (selectFinal rows entity.1)).find?
      (·.entity = row.stored.entity) = some row.stored := by
    refine find?_of_highest byObservation_trans byObservation_total
      (hin.mem_selectFinal hos hentity hlast ho hrow hmem) fun m hm hkey hle => ?_
    obtain ⟨o', ho', row', hrow', rfl⟩ := hin.of_mem (mem_of_mem_final hm)
    have hconcerns' : Concerns entity o' :=
      hrow'.concerns_iff.mpr (hkey.trans (hrow.concerns_iff.mp hconcerns))
    exact hos.highest hentity hlast ho hrow ho' hrow' hconcerns' (.inr (of_decide_eq_true hle))
  rw [hrow.concerns_iff.mp hconcerns] at hfind
  rw [view_eq, hfind, Option.toList_some]
  cases hop : getOperation payload.record with
  | upsert =>
    simp only [operationName, hop, Except.ok.injEq] at hname
    subst hname
    rw [List.filter_cons_of_pos (by rw [hoperation]; rfl), List.filter_nil, if_pos rfl]
  | delete =>
    simp only [operationName, hop, Except.ok.injEq] at hname
    subst hname
    rw [List.filter_cons_of_neg (by rw [hoperation]; decide), List.filter_nil, if_neg (by decide)]
  | unspecified | unrecognized =>
    -- a row has one of the two operations
    rw [operationName, hop] at hname
    cases hname

/-- An entity that no observation is about is not shown. -/
theorem view_of_none (hin : Inserted t c os rows) (hlast : lastAbout entity os = none) :
    view rows t c entity = [] := by
  rw [view_eq]
  cases hfind : (final MappedRow.entity byObservation (selectFinal rows entity.1)).find?
      (·.entity = (entity.1, .string t :: .string c :: entity.2)) with
  | none => rfl
  | some m =>
    obtain ⟨o, ho, row, hrow, rfl⟩ :=
      hin.of_mem (mem_of_mem_final (mem_of_mem_final (List.mem_of_find?_eq_some hfind)))
    have hconcerns : Concerns entity o := hrow.concerns_iff.mpr (key_of_find? hfind)
    have := List.find?_eq_none.mp hlast o (List.mem_reverse.mpr ho)
    exact absurd (decide_eq_true hconcerns) this

end
end Ingestion
end KubeCost
