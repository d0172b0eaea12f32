import Mathlib.Data.List.Basic
import Mathlib.Data.List.Pairwise
import Mathlib.Data.Nat.Notation
import Mathlib.Order.Basic

/-!
# Tables with serial keys

Rows in the order of their insertion. Keys are handed out from a sequence,
so they lie below the next one and no two rows share one; rows never change
their key. Columns may be unique; a column that is unique matches every
value with at most one row.
-/

namespace Photogram.RowTable

/-- Rows with keys from a sequence. -/
structure Table {ρ : Type} (key : ρ → ℕ) where
  /-- The rows, oldest first. -/
  rows : List ρ
  /-- The next key of the sequence. -/
  next : ℕ
  /-- The sequence is ahead of every key. -/
  key_lt : ∀ row ∈ rows,key row<next
  /-- No two rows share a key. -/
  distinct : rows.Pairwise fun a b => key a≠key b

variable {ρ : Type} {key : ρ → ℕ}

/-- A table without rows. -/
def Table.empty (key : ρ → ℕ) : Table key :=
  ⟨[],1,fun _ h => absurd h List.not_mem_nil,List.Pairwise.nil⟩

/-- Insert a row under the next key. -/
def Table.insert (table : Table key) (row : ρ) (h : key row=table.next) : Table key where
  rows := table.rows++[row]
  next := table.next+1
  key_lt := by
    intro other hmem
    rcases List.mem_append.mp hmem with hold|hnew
    · exact Nat.lt_succ_of_lt (table.key_lt other hold)
    · rw [List.mem_singleton.mp hnew,h]
      exact Nat.lt_succ_self _
  distinct := by
    rw [List.pairwise_append]
    refine ⟨table.distinct,List.pairwise_singleton _ _,?_⟩
    intro other hold new hnew
    rw [List.mem_singleton.mp hnew,h]
    exact Nat.ne_of_lt (table.key_lt other hold)

/-- Delete the row of a key. -/
def Table.delete (table : Table key) (id : ℕ) : Table key where
  rows := table.rows.filter fun row => key row≠id
  next := table.next
  key_lt := fun row hmem => table.key_lt row (List.mem_filter.mp hmem).1
  distinct := table.distinct.filter _

/-- A row under an update of the row of a key. -/
def changeAt (key : ρ → ℕ) (id : ℕ) (change : ρ → ρ) (row : ρ) : ρ :=
  if key row=id then change row else row

/-- An update that keeps keys keeps them everywhere. -/
theorem key_changeAt {id : ℕ} {change : ρ → ρ} (h : ∀ row,key (change row)=key row) (row : ρ) :
    key (changeAt key id change row)=key row := by
  unfold changeAt
  split
  · exact h row
  · rfl

/-- Change the row of a key. -/
def Table.update (table : Table key) (id : ℕ) (change : ρ → ρ)
    (h : ∀ row,key (change row)=key row) : Table key where
  rows := table.rows.map (changeAt key id change)
  next := table.next
  key_lt := by
    intro row hmem
    obtain ⟨old,hold,rfl⟩ := List.mem_map.mp hmem
    rw [key_changeAt h]
    exact table.key_lt old hold
  distinct := by
    rw [List.pairwise_map]
    exact table.distinct.imp fun {a b} hne => by rwa [key_changeAt h,key_changeAt h]

/-- Delete the rows of a selection. -/
def Table.deleteWhere (table : Table key) (selected : ρ → Bool) : Table key where
  rows := table.rows.filter fun row => !selected row
  next := table.next
  key_lt := fun row hmem => table.key_lt row (List.mem_filter.mp hmem).1
  distinct := table.distinct.filter _

/-- Change every row, keeping its key. -/
def Table.updateAll (table : Table key) (change : ρ → ρ) (h : ∀ row,key (change row)=key row) :
    Table key where
  rows := table.rows.map change
  next := table.next
  key_lt := by
    intro row hmem
    obtain ⟨old,hold,rfl⟩ := List.mem_map.mp hmem
    rw [h]
    exact table.key_lt old hold
  distinct := by
    rw [List.pairwise_map]
    exact table.distinct.imp fun {a b} hne => by rwa [h,h]

/-- Rows behind an insertion. -/
theorem mem_insert {table : Table key} {row other : ρ} (h : key row=table.next) :
    other ∈ (table.insert row h).rows ↔ other ∈ table.rows ∨ other=row := by
  change other ∈ table.rows++[row] ↔ _
  rw [List.mem_append,List.mem_singleton]

/-- Rows behind a deletion. -/
theorem mem_deleteWhere {table : Table key} {selected : ρ → Bool} {row : ρ} :
    row ∈ (table.deleteWhere selected).rows ↔ row ∈ table.rows ∧ selected row=false := by
  change row ∈ table.rows.filter _ ↔ _
  rw [List.mem_filter,Bool.not_eq_true']

/-- Rows behind a change of every row. -/
theorem mem_updateAll {table : Table key} {change : ρ → ρ} (h : ∀ row,key (change row)=key row)
    {row : ρ} : row ∈ (table.updateAll change h).rows ↔ ∃ old ∈ table.rows,change old=row :=
  List.mem_map

/-- Deleting the row inserted last gives the rows back. -/
theorem delete_insert (table : Table key) (row : ρ) (h : key row=table.next) :
    ((table.insert row h).delete table.next).rows=table.rows := by
  change (table.rows++[row]).filter _=_
  rw [List.filter_append,List.filter_eq_self.mpr]
  · simp [h]
  · intro other hold
    have hlt := table.key_lt other hold
    simp only [ne_eq,decide_not,Bool.not_eq_eq_eq_not,Bool.not_true,decide_eq_false_iff_not]
    omega

/-- Changing the row inserted last changes no other row. -/
theorem update_insert (table : Table key) (row : ρ) (h : key row=table.next) (change : ρ → ρ)
    (hkey : ∀ row,key (change row)=key row) :
    ((table.insert row h).update table.next change hkey).rows=table.rows++[change row] := by
  change (table.rows++[row]).map _=_
  rw [List.map_append]
  congr 1
  · conv_rhs => rw [←List.map_id table.rows]
    apply List.map_congr_left
    intro other hold
    have hlt := table.key_lt other hold
    exact if_neg (by omega)
  · exact congrArg (fun changed => [changed]) (if_pos h)

/-- No two rows share a value in a column. -/
def UniqueBy {κ : Type} (column : ρ → κ) (rows : List ρ) : Prop :=
  rows.Pairwise fun a b => column a≠column b

/-- Rows with one value in a unique column are one row. -/
theorem UniqueBy.eq {κ : Type} {column : ρ → κ} {rows : List ρ} (hunique : UniqueBy column rows)
    {a b : ρ} (ha : a ∈ rows) (hb : b ∈ rows) (h : column a=column b) : a=b := by
  have hsame : rows.Pairwise fun a b => column a=column b → a=b :=
    hunique.imp fun hne heq => absurd heq hne
  have : Std.Symm fun a b : ρ => column a=column b → a=b := ⟨fun _ _ h heq => (h heq.symm).symm⟩
  exact hsame.forall_of_forall (fun _ _ _ => rfl) ha hb h

/-- Rows with one key are one row. -/
theorem eq_of_key_eq (table : Table key) {a b : ρ} (ha : a ∈ table.rows) (hb : b ∈ table.rows)
    (h : key a=key b) : a=b := UniqueBy.eq table.distinct ha hb h

/-- Deleting a row takes it from a selection it belongs to, and nothing else. -/
theorem length_filter_delete (table : Table key) {row : ρ} (hmem : row ∈ table.rows)
    (selected : ρ → Bool) :
    ((table.delete (key row)).rows.filter selected).length+(if selected row then 1 else 0)=
      (table.rows.filter selected).length := by
  obtain ⟨rows,next,hlt,hdistinct⟩ := table
  change ((rows.filter _).filter _).length+_=(rows.filter _).length
  change row ∈ rows at hmem
  clear hlt
  induction rows with
  | nil => exact absurd hmem List.not_mem_nil
  | cons head tail ih =>
    obtain ⟨hhead,htail⟩ := List.pairwise_cons.mp hdistinct
    rcases List.mem_cons.mp hmem with rfl|hrow
    · have hself : tail.filter (fun other => decide (key other≠key row))=tail :=
        List.filter_eq_self.mpr fun other hother => decide_eq_true (hhead other hother).symm
      rw [List.filter_cons_of_neg (by simp),hself]
      cases hselected : selected row <;> simp [hselected]
    · have hrest := ih htail hrow
      have hne := hhead row hrow
      have hkept : (head::tail).filter (fun other => decide (key other≠key row))=
          head::tail.filter fun other => decide (key other≠key row) :=
        List.filter_cons_of_pos (decide_eq_true hne)
      rw [hkept]
      cases hselected : selected head with
      | false =>
        rw [List.filter_cons_of_neg (by simp [hselected]),
          List.filter_cons_of_neg (by simp [hselected])]
        exact hrest
      | true =>
        rw [List.filter_cons_of_pos hselected,List.filter_cons_of_pos hselected,
          List.length_cons,List.length_cons]
        omega

section unique

variable {κ : Type}

/-- A unique column stays unique when a row with a new value comes behind. -/
theorem uniqueBy_append {column : ρ → κ} {rows : List ρ} {row : ρ} (h : UniqueBy column rows)
    (hnew : ∀ other ∈ rows,column other≠column row) : UniqueBy column (rows++[row]) := by
  refine List.pairwise_append.mpr ⟨h,List.pairwise_singleton _ _,?_⟩
  intro other hold new hmem
  rw [List.mem_singleton.mp hmem]
  exact hnew other hold

/-- A unique column stays unique when rows go. -/
theorem uniqueBy_delete {column : ρ → κ} {table : Table key} (h : UniqueBy column table.rows)
    (id : ℕ) : UniqueBy column (table.delete id).rows := h.filter _

/-- A unique column stays unique when a row changes to a value no other row has. -/
theorem uniqueBy_update {column : ρ → κ} {table : Table key} (h : UniqueBy column table.rows)
    (id : ℕ) (change : ρ → ρ) (hkey : ∀ row,key (change row)=key row)
    (hnew : ∀ row ∈ table.rows,key row=id → ∀ other ∈ table.rows,key other≠id →
      column other≠column (change row)) :
    UniqueBy column (table.update id change hkey).rows := by
  change (table.rows.map _).Pairwise _
  rw [List.pairwise_map]
  refine (h.and table.distinct).imp_of_mem ?_
  rintro a b ha hb ⟨hcolumn,hne⟩
  unfold changeAt
  by_cases haid : key a=id
  · have hbid : key b≠id := fun hb => hne (haid.trans hb.symm)
    rw [if_pos haid,if_neg hbid]
    exact (hnew a ha haid b hb hbid).symm
  · by_cases hbid : key b=id
    · rw [if_neg haid,if_pos hbid]
      exact hnew b hb hbid a ha haid
    · rw [if_neg haid,if_neg hbid]
      exact hcolumn

/-- A unique column has any value in at most one row. -/
theorem length_filter_le_one [DecidableEq κ] {column : ρ → κ} {rows : List ρ}
    (h : UniqueBy column rows) (value : κ) :
    (rows.filter fun row => column row=value).length ≤ 1 := by
  induction rows with
  | nil => exact Nat.zero_le 1
  | cons row rows ih =>
    obtain ⟨hhead,htail⟩ := List.pairwise_cons.mp h
    by_cases hvalue : column row=value
    · have hnone : rows.filter (fun row => column row=value)=[] := by
        rw [List.filter_eq_nil_iff]
        intro other hmem
        rw [decide_eq_true_iff]
        exact fun heq => hhead other hmem (hvalue.trans heq.symm)
      rw [List.filter_cons_of_pos (by rwa [decide_eq_true_iff]),hnone]
      exact Nat.le_refl 1
    · rw [List.filter_cons_of_neg (by rwa [decide_eq_true_iff])]
      exact ih htail

/-- A unique column has the value of a row in that row only. -/
theorem filter_unique [DecidableEq κ] {column : ρ → κ} {rows : List ρ} (h : UniqueBy column rows)
    {row : ρ} (hmem : row ∈ rows) : rows.filter (fun other => column other=column row)=[row] := by
  have hrow : row ∈ rows.filter fun other => column other=column row :=
    List.mem_filter.mpr ⟨hmem,decide_eq_true rfl⟩
  have hone := length_filter_le_one h (column row)
  obtain ⟨first,rest,hcons⟩ := List.exists_cons_of_ne_nil (List.ne_nil_of_mem hrow)
  rw [hcons] at hrow hone ⊢
  have hrest : rest=[] := List.length_eq_zero_iff.mp (by rw [List.length_cons] at hone; omega)
  rw [hrest] at hrow ⊢
  rw [List.mem_singleton.mp hrow]

end unique

/-- The row of a key, as the only one. -/
theorem filter_key (table : Table key) {row : ρ} (hmem : row ∈ table.rows) :
    table.rows.filter (fun other => key other=key row)=[row] := filter_unique table.distinct hmem

/-- Changing the row of a key leaves the rows of another one. -/
theorem filter_update_other (table : Table key) {id other : ℕ} (hne : id≠other) (change : ρ → ρ)
    (h : ∀ row,key (change row)=key row) :
    (table.update id change h).rows.filter (fun row => key row=other)=
      table.rows.filter fun row => key row=other := by
  change (table.rows.map _).filter _=_
  rw [List.filter_map]
  have hsame : ((fun row => decide (key row=other))∘changeAt key id change)=
      fun row => decide (key row=other) := by
    funext row
    exact congrArg (fun k => decide (k=other)) (key_changeAt h row)
  rw [hsame]
  conv_rhs => rw [←List.map_id (table.rows.filter _)]
  apply List.map_congr_left
  intro row hrow
  have hkey : key row=other := of_decide_eq_true (List.mem_filter.mp hrow).2
  exact if_neg fun hid => hne (hid.symm.trans hkey)

section lookup

/-- Row of a key. -/
def Table.lookup (table : Table key) (id : ℕ) : Option ρ :=
  table.rows.find? fun row => decide (key row=id)

variable {table : Table key} {id : ℕ}

/-- The row of a key is the row that has it. -/
theorem lookup_eq_some_iff {row : ρ} : table.lookup id=some row ↔ row ∈ table.rows ∧ key row=id := by
  unfold Table.lookup
  constructor
  · intro h
    exact ⟨List.mem_of_find?_eq_some h,
      of_decide_eq_true (List.find?_some (p := fun row => decide (key row=id)) h)⟩
  · rintro ⟨hmem,hid⟩
    cases hfind : table.rows.find? fun row => decide (key row=id) with
    | none =>
      rw [List.find?_eq_none] at hfind
      exact absurd (decide_eq_true hid) (hfind row hmem)
    | some found =>
      have hfound : key found=id :=
        of_decide_eq_true (List.find?_some (p := fun row => decide (key row=id)) hfind)
      rw [eq_of_key_eq table (List.mem_of_find?_eq_some hfind) hmem (hfound.trans hid.symm)]

/-- A row is that of its key. -/
theorem lookup_key {row : ρ} (h : row ∈ table.rows) : table.lookup (key row)=some row :=
  lookup_eq_some_iff.mpr ⟨h,rfl⟩

/-- A key with a row has been handed out. -/
theorem lt_next_of_lookup {row : ρ} (h : table.lookup id=some row) : id<table.next := by
  obtain ⟨hmem,hid⟩ := lookup_eq_some_iff.mp h
  exact hid ▸ table.key_lt row hmem

/-- No row has the next key. -/
theorem lookup_next (table : Table key) : table.lookup table.next=none := by
  cases hrow : table.lookup table.next with
  | none => rfl
  | some row => exact absurd (lt_next_of_lookup hrow) (Nat.lt_irrefl _)

/-- An inserted row is that of the next key. -/
theorem lookup_insert {row : ρ} (h : key row=table.next) :
    (table.insert row h).lookup id=if id=table.next then some row else table.lookup id := by
  refine Option.ext fun found => ?_
  rw [lookup_eq_some_iff,mem_insert h]
  by_cases hid : id=table.next
  · rw [if_pos hid,Option.some.injEq]
    constructor
    · rintro ⟨hold|hnew,hkey⟩
      · have hlt := table.key_lt found hold
        omega
      · exact hnew.symm
    · rintro rfl
      exact ⟨Or.inr rfl,h.trans hid.symm⟩
  · rw [if_neg hid,lookup_eq_some_iff]
    constructor
    · rintro ⟨hold|hnew,hkey⟩
      · exact ⟨hold,hkey⟩
      · rw [hnew,h] at hkey
        exact absurd hkey.symm hid
    · exact fun hold => ⟨Or.inl hold.1,hold.2⟩

/-- A deleted key has no row. -/
theorem lookup_delete (deleted : ℕ) :
    (table.delete deleted).lookup id=if id=deleted then none else table.lookup id := by
  refine Option.ext fun found => ?_
  have hrows : found ∈ (table.delete deleted).rows ↔ found ∈ table.rows ∧ key found≠deleted := by
    change found ∈ table.rows.filter _ ↔ _
    rw [List.mem_filter,decide_eq_true_eq]
  rw [lookup_eq_some_iff,hrows]
  by_cases hid : id=deleted
  · rw [if_pos hid]
    exact iff_of_false (fun h => h.1.2 (h.2.trans hid)) nofun
  · rw [if_neg hid,lookup_eq_some_iff]
    exact ⟨fun h => ⟨h.1.1,h.2⟩,fun h => ⟨⟨h.1,fun heq => hid (h.2.symm.trans heq)⟩,h.2⟩⟩

/-- A changed row is that of its key. -/
theorem lookup_update (changed : ℕ) (change : ρ → ρ) (h : ∀ row,key (change row)=key row) :
    (table.update changed change h).lookup id=
      if id=changed then (table.lookup id).map change else table.lookup id := by
  refine Option.ext fun found => ?_
  have hrows : found ∈ (table.update changed change h).rows ↔
      ∃ old ∈ table.rows,changeAt key changed change old=found := List.mem_map
  rw [lookup_eq_some_iff,hrows]
  by_cases hid : id=changed
  · rw [if_pos hid,Option.map_eq_some_iff]
    constructor
    · rintro ⟨⟨old,hold,rfl⟩,hkey⟩
      rw [key_changeAt h] at hkey
      exact ⟨old,lookup_eq_some_iff.mpr ⟨hold,hkey⟩,(if_pos (hkey.trans hid)).symm⟩
    · rintro ⟨old,hlookup,rfl⟩
      obtain ⟨hold,hkey⟩ := lookup_eq_some_iff.mp hlookup
      exact ⟨⟨old,hold,if_pos (hkey.trans hid)⟩,(h old).trans hkey⟩
  · rw [if_neg hid,lookup_eq_some_iff]
    constructor
    · rintro ⟨⟨old,hold,rfl⟩,hkey⟩
      rw [key_changeAt h] at hkey
      have hsame : changeAt key changed change old=old := if_neg fun heq => hid (hkey.symm.trans heq)
      rw [hsame]
      exact ⟨hold,hkey⟩
    · rintro ⟨hold,hkey⟩
      exact ⟨⟨found,hold,if_neg fun heq => hid (hkey.symm.trans heq)⟩,hkey⟩

/-- A changed table has the changed row of a key. -/
theorem lookup_updateAll {change : ρ → ρ} (h : ∀ row,key (change row)=key row) :
    (table.updateAll change h).lookup id=(table.lookup id).map change := by
  refine Option.ext fun found => ?_
  rw [lookup_eq_some_iff,mem_updateAll,Option.map_eq_some_iff]
  constructor
  · rintro ⟨⟨old,hold,rfl⟩,hkey⟩
    exact ⟨old,lookup_eq_some_iff.mpr ⟨hold,(h old).symm.trans hkey⟩,rfl⟩
  · rintro ⟨old,hlookup,rfl⟩
    obtain ⟨hold,hkey⟩ := lookup_eq_some_iff.mp hlookup
    exact ⟨⟨old,hold,rfl⟩,(h old).trans hkey⟩

/-- The row of a key is there unless it was selected. -/
theorem lookup_deleteWhere (selected : ρ → Bool) :
    (table.deleteWhere selected).lookup id=(table.lookup id).filter fun row => !selected row := by
  refine Option.ext fun found => ?_
  rw [lookup_eq_some_iff,mem_deleteWhere,Option.filter_eq_some_iff,lookup_eq_some_iff,
    Bool.not_eq_true']
  exact ⟨fun ⟨⟨hmem,hnot⟩,hkey⟩ => ⟨⟨hmem,hkey⟩,hnot⟩,fun ⟨⟨hmem,hkey⟩,hnot⟩ => ⟨⟨hmem,hnot⟩,hkey⟩⟩

end lookup

end Photogram.RowTable
