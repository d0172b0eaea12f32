import Mathlib.Data.List.Sort

/-!
# Pages of queries whose order is not fixed

A query lists its rows in an order that respects a key and is free otherwise,
chosen anew at each execution. Pages cut out of such listings contain every
row once, whatever the orders, exactly when no boundary between two pages
falls inside a group of rows with one key.
-/

namespace Photogram.PagedQuery

variable {ρ κ : Type*} [LinearOrder κ]

/-- A listing of rows that a query ordered by a key may answer. -/
structure Admissible (key : ρ → κ) (rows listing : List ρ) : Prop where
  /-- It lists the rows. -/
  perm : listing.Perm rows
  /-- It respects the key. -/
  ordered : listing.Pairwise fun a b => key a ≤ key b

/-- The page of a listing behind an offset. -/
def page (listing : List ρ) (limit offset : ℕ) : List ρ := (listing.drop offset).take limit

/-- Pages of a size, one behind the other, each of an execution of its own. -/
def pages (listings : ℕ → List ρ) (n count : ℕ) : List ρ :=
  (List.range count).flatMap fun k => page (listings k) n (k*n)

/-- Rows whose key is less than that of a row. -/
def before (key : ρ → κ) (rows : List ρ) (row : ρ) : ℕ :=
  rows.countP fun other => key other<key row

/-- Rows with the key of a row. -/
def tied (key : ρ → κ) (rows : List ρ) (row : ρ) : ℕ :=
  rows.countP fun other => key other=key row

/-- No boundary between pages of a size falls inside a group of rows with one key. -/
def Aligned (key : ρ → κ) (rows : List ρ) (n : ℕ) : Prop :=
  ∀ row ∈ rows,∀ k,k*n ≤ before key rows row ∨ before key rows row+tied key rows row ≤ k*n

section complete

variable {key : ρ → κ} {rows listing : List ρ}

/-- The pages of one more execution. -/
theorem pages_succ (listings : ℕ → List ρ) (n count : ℕ) :
    pages listings n (count+1)=pages listings n count++page (listings count) n (count*n) := by
  unfold pages
  rw [List.range_succ,List.flatMap_append,List.flatMap_singleton]

/-- A page follows what is in front of its offset. -/
theorem take_append_page (listing : List ρ) (n k : ℕ) :
    listing.take (k*n)++page listing n (k*n)=listing.take ((k+1)*n) := by
  unfold page
  rw [Nat.add_mul,Nat.one_mul,List.take_add]

/-- A row stands behind all rows of a less key, and in front of the end of its group. -/
theorem Admissible.position {front back : List ρ} {row : ρ}
    (h : Admissible key rows (front++row::back)) :
    before key rows row ≤ front.length ∧
      front.length<before key rows row+tied key rows row := by
  obtain ⟨_,hordered,hacross⟩ := List.pairwise_append.mp h.ordered
  have hbehind : ∀ other ∈ row::back,¬key other<key row := by
    intro other hother
    rcases List.mem_cons.mp hother with rfl|hother
    · exact lt_irrefl _
    · exact not_lt.mpr ((List.pairwise_cons.mp hordered).1 other hother)
  have hfront : ∀ other ∈ front,key other ≤ key row := fun other hother =>
    hacross other hother row List.mem_cons_self
  have hbefore : before key rows row=front.countP fun other => key other<key row := by
    unfold before
    rw [←h.perm.countP_eq,List.countP_append,Nat.add_eq_left,List.countP_eq_zero]
    intro other hother
    rw [decide_eq_true_iff]
    exact hbehind other hother
  have htied : front.countP (fun other => key other=key row)+1 ≤ tied key rows row := by
    unfold tied
    rw [←h.perm.countP_eq,List.countP_append,List.countP_cons_of_pos (by simp)]
    omega
  have hsplit : front.length=front.countP (fun other => key other<key row)+
      front.countP fun other => key other=key row := by
    have hrest : front.countP (fun other => ¬(decide (key other<key row))=true)=
        front.countP fun other => key other=key row := by
      refine List.countP_congr fun other hother => ?_
      have hle := hfront other hother
      simp only [decide_eq_true_eq]
      constructor
      · exact fun hnot => le_antisymm hle (not_lt.mp hnot)
      · exact fun heq => heq ▸ lt_irrefl _
    refine (List.length_eq_countP_add_countP fun other => decide (key other<key row)).trans ?_
    exact congrArg _ hrest
  constructor
  · rw [hbefore]
    exact List.countP_le_length
  · omega

/-- A row is behind fewer rows than there are. -/
theorem before_lt_length {row : ρ} (hmem : row ∈ rows) : before key rows row<rows.length := by
  refine lt_of_le_of_ne List.countP_le_length fun hall => ?_
  have hself := List.countP_eq_length.mp hall row hmem
  rw [decide_eq_true_iff] at hself
  exact lt_irrefl _ hself

/-- In front of an aligned boundary stand the rows that are behind fewer rows. -/
theorem Admissible.take_eq_filter (h : Admissible key rows listing) {limit : ℕ}
    (haligned : ∀ row ∈ rows,limit ≤ before key rows row ∨
      before key rows row+tied key rows row ≤ limit) :
    listing.take limit=listing.filter fun row => before key rows row<limit := by
  have hfirst : ∀ row ∈ listing.take limit,before key rows row<limit := by
    intro row hmem
    obtain ⟨front,back,hsplit⟩ := List.append_of_mem hmem
    have hlisting : listing=front++row::(back++listing.drop limit) := by
      conv_lhs => rw [←List.take_append_drop limit listing,hsplit]
      simp
    have hshort := congrArg List.length hsplit
    rw [List.length_take,List.length_append,List.length_cons] at hshort
    rw [hlisting] at h
    have hposition := h.position.1
    omega
  have hlast : ∀ row ∈ listing.drop limit,¬before key rows row<limit := by
    intro row hmem
    obtain ⟨front,back,hsplit⟩ := List.append_of_mem hmem
    have hlisting : listing=(listing.take limit++front)++row::back := by
      conv_lhs => rw [←List.take_append_drop limit listing,hsplit]
      simp
    have hlength := congrArg List.length hsplit
    rw [List.length_drop,List.length_append,List.length_cons] at hlength
    have hrow : row ∈ rows := h.perm.mem_iff.mp (List.mem_of_mem_drop hmem)
    have htake : (listing.take limit).length=limit := by
      rw [List.length_take]
      omega
    rw [hlisting] at h
    have hposition := h.position.2
    rw [List.length_append,htake] at hposition
    have hcase := haligned row hrow
    omega
  conv_rhs => rw [←List.take_append_drop limit listing]
  rw [List.filter_append,List.filter_eq_self.mpr fun row hmem => decide_eq_true (hfirst row hmem),
    List.filter_eq_nil_iff.mpr fun row hmem => by simpa using hlast row hmem,List.append_nil]

/-- The first pages contain the rows in front of their boundary. -/
theorem pages_perm_filter {n : ℕ} (haligned : Aligned key rows n) {listings : ℕ → List ρ}
    (h : ∀ k,Admissible key rows (listings k)) (count : ℕ) :
    (pages listings n count).Perm (rows.filter fun row => before key rows row<count*n) := by
  have htake : ∀ k j,((listings k).take (j*n)).Perm
      (rows.filter fun row => before key rows row<j*n) := by
    intro k j
    rw [(h k).take_eq_filter fun row hmem => haligned row hmem j]
    exact (h k).perm.filter _
  induction count with
  | zero => simp [pages]
  | succ count ih =>
    rw [pages_succ]
    refine (List.Perm.append_right _ (ih.trans (htake count count).symm)).trans ?_
    rw [take_append_page]
    exact htake count (count+1)

/-- Enough aligned pages contain every row once. -/
theorem pages_perm {n count : ℕ} (haligned : Aligned key rows n) {listings : ℕ → List ρ}
    (h : ∀ k,Admissible key rows (listings k)) (hcount : rows.length ≤ count*n) :
    (pages listings n count).Perm rows := by
  have hall := pages_perm_filter haligned h count
  rwa [List.filter_eq_self.mpr fun row hmem =>
    decide_eq_true ((before_lt_length hmem).trans_le hcount)] at hall

end complete

/-- One page of all rows has no boundary inside. -/
theorem aligned_of_length_le {key : ρ → κ} {rows : List ρ} {n : ℕ} (h : rows.length ≤ n) :
    Aligned key rows n := by
  intro row _ k
  have hwithin : before key rows row+tied key rows row ≤ rows.length := by
    have hrest : tied key rows row ≤
        rows.countP fun other => ¬(decide (key other<key row))=true := by
      refine List.countP_mono_left fun other _ htied => ?_
      simp [of_decide_eq_true htied]
    have hsplit := @List.length_eq_countP_add_countP ρ (fun other => decide (key other<key row)) rows
    unfold before
    omega
  cases k with
  | zero => exact Or.inl (by rw [Nat.zero_mul]; exact Nat.zero_le _)
  | succ k =>
    rw [Nat.add_mul]
    omega

/-- The groups of a query without an order are aligned when there is one page. -/
theorem aligned_const_iff {rows : List ρ} {n : ℕ} (hn : 0<n) :
    Aligned (fun _ => ()) rows n ↔ rows.length ≤ n := by
  refine ⟨fun haligned => ?_,aligned_of_length_le⟩
  have hbefore : ∀ row,before (fun _ => ()) rows row=0 := by
    intro row
    unfold before
    exact List.countP_eq_zero.mpr fun other _ => by simp
  have htied : ∀ row,tied (fun _ => ()) rows row=rows.length := by
    intro row
    unfold tied
    exact List.countP_eq_length.mpr fun other _ => by simp
  cases hrows : rows with
  | nil => exact Nat.zero_le n
  | cons row rest =>
    have hboundary := haligned row (by rw [hrows]; exact List.mem_cons_self) 1
    rw [hbefore,htied,Nat.one_mul,hrows] at hboundary
    omega

section incomplete

variable {key : ρ → κ} {rows : List ρ}

/-- Rows sorted by their key. -/
def sorted (key : ρ → κ) (rows : List ρ) : List ρ := rows.mergeSort fun a b => key a ≤ key b

/-- Sorting respects the key. -/
theorem sorted_pairwise (key : ρ → κ) (rows : List ρ) :
    (sorted key rows).Pairwise fun a b => key a ≤ key b := by
  have hsorted := @List.pairwise_mergeSort ρ (fun a b => decide (key a ≤ key b))
    (fun a b c hab hbc => by
      rw [decide_eq_true_iff] at hab hbc ⊢
      exact hab.trans hbc)
    (fun a b => by
      rw [Bool.or_eq_true,decide_eq_true_iff,decide_eq_true_iff]
      exact le_total _ _) rows
  exact hsorted.imp fun h => of_decide_eq_true h

/-- A listing with the group of a row in a given order. -/
def around (key : ρ → κ) (rows : List ρ) (row : ρ) (group : List ρ) : List ρ :=
  sorted key (rows.filter fun other => key other<key row)++
    (group++sorted key (rows.filter fun other => key row<key other))

/-- The group may be listed in any order. -/
theorem admissible_around {row : ρ} {group : List ρ}
    (hgroup : group.Perm (rows.filter fun other => key other=key row)) :
    Admissible key rows (around key rows row group) := by
  have hless : ∀ other ∈ sorted key (rows.filter fun other => key other<key row),
      key other<key row := by
    intro other hmem
    have hfilter := (List.mergeSort_perm _ _).mem_iff.mp hmem
    exact of_decide_eq_true (List.mem_filter.mp hfilter).2
  have hmore : ∀ other ∈ sorted key (rows.filter fun other => key row<key other),
      key row<key other := by
    intro other hmem
    have hfilter := (List.mergeSort_perm _ _).mem_iff.mp hmem
    exact of_decide_eq_true (List.mem_filter.mp hfilter).2
  have hsame : ∀ other ∈ group,key other=key row := fun other hmem =>
    of_decide_eq_true (List.mem_filter.mp (hgroup.mem_iff.mp hmem)).2
  constructor
  · have hnested : ∀ {p q r : ρ → Bool},(∀ a,p a=(!r a && q a)) →
        rows.filter p=(rows.filter fun a => !r a).filter q := by
      intro p q r heq
      rw [List.filter_filter]
      exact List.filter_congr fun a _ => by rw [heq a,Bool.and_comm]
    have hmiddle : rows.filter (fun other => key other=key row)=
        (rows.filter fun other => !decide (key other<key row)).filter
          fun other => key other=key row := hnested fun other => by
      by_cases heq : key other=key row
      · simp [heq]
      · simp [heq]
    have hend : rows.filter (fun other => key row<key other)=
        (rows.filter fun other => !decide (key other<key row)).filter
          fun other => !decide (key other=key row) := hnested fun other => by
      rcases lt_trichotomy (key other) (key row) with hlt|heq|hgt
      · simp [hlt,hlt.le]
      · simp [heq]
      · simp [hgt,hgt.le,hgt.ne']
    have hrest := List.filter_append_perm (fun other => decide (key other=key row))
      (rows.filter fun other => !decide (key other<key row))
    rw [←hmiddle,←hend] at hrest
    refine (List.Perm.append (List.mergeSort_perm _ _) ((List.Perm.append hgroup
      (List.mergeSort_perm _ _)).trans hrest)).trans ?_
    exact List.filter_append_perm _ rows
  · refine List.pairwise_append.mpr ⟨sorted_pairwise _ _,List.pairwise_append.mpr
      ⟨?_,sorted_pairwise _ _,?_⟩,?_⟩
    · exact List.pairwise_of_forall_mem_list fun a ha b hb => (hsame a ha).trans_le (hsame b hb).ge
    · exact fun a ha b hb => (hsame a ha).trans_le (hmore b hb).le
    · intro a ha b hb
      rcases List.mem_append.mp hb with hb|hb
      · exact (hless a ha).le.trans (hsame b hb).ge
      · exact (hless a ha).le.trans (hmore b hb).le

/-- Pages cut out of one listing up to an execution and out of another one from it on. -/
theorem pages_switch (first second : List ρ) (n k count : ℕ) :
    pages (fun j => if j<k then first else second) n (k+count)=
      first.take (k*n)++(second.drop (k*n)).take (count*n) := by
  have hfirst : ∀ j ≤ k,pages (fun j => if j<k then first else second) n j=first.take (j*n) := by
    intro j hj
    induction j with
    | zero => simp [pages]
    | succ j ih =>
      rw [pages_succ,ih (by omega),if_pos (by omega),take_append_page]
  induction count with
  | zero =>
    rw [Nat.add_zero,hfirst k (Nat.le_refl k)]
    simp
  | succ count ih =>
    have hpage : page second n ((k+count)*n)=((second.drop (k*n)).drop (count*n)).take n := by
      unfold page
      rw [List.drop_drop,Nat.add_mul]
    rw [←Nat.add_assoc,pages_succ,ih,if_neg (by omega),hpage,List.append_assoc,←List.take_add,
      Nat.add_mul,Nat.one_mul]

/-- Across a boundary inside a group some row comes twice, when the orders change there. -/
theorem not_pages_perm (hrows : rows.Nodup) {row : ρ} {n k : ℕ}
    (hlow : before key rows row<k*n) (hhigh : k*n<before key rows row+tied key rows row) :
    ∃ listings : ℕ → List ρ,(∀ j,Admissible key rows (listings j)) ∧
      ∀ count,rows.length ≤ count*n → ¬(pages listings n count).Perm rows := by
  have hgroup : (rows.filter fun other => key other=key row).length=tied key rows row :=
    List.countP_eq_length_filter.symm
  have hless : (sorted key (rows.filter fun other => key other<key row)).length=
      before key rows row := by
    unfold sorted before
    rw [List.length_mergeSort,List.countP_eq_length_filter]
  obtain ⟨first,rest,hfirst⟩ : ∃ first rest,
      rows.filter (fun other => key other=key row)=first::rest := by
    refine List.exists_cons_of_ne_nil (List.ne_nil_of_length_pos ?_)
    omega
  rw [hfirst,List.length_cons] at hgroup
  have hforth := @admissible_around ρ κ _ key rows row (first::rest) (by rw [hfirst])
  have hback := @admissible_around ρ κ _ key rows row (rest++[first])
    (by rw [hfirst]; exact List.perm_append_singleton first rest)
  refine ⟨fun j => if j<k then around key rows row (first::rest) else
    around key rows row (rest++[first]),fun j => ?_,fun count hcount hperm => ?_⟩
  · dsimp only
    split
    · exact hforth
    · exact hback
  · have hlength : (around key rows row (rest++[first])).length=rows.length := hback.perm.length_eq
    have hinside : before key rows row+tied key rows row ≤ rows.length := by
      rw [←hlength]
      unfold around
      rw [List.length_append,List.length_append,List.length_append,List.length_singleton,hless]
      omega
    obtain ⟨more,rfl⟩ : ∃ more,count=k+more := by
      refine Nat.exists_eq_add_of_le (Nat.le_of_mul_le_mul_right ?_ (c := n) ?_)
      · omega
      · exact Nat.pos_of_ne_zero fun hzero => by rw [hzero] at hlow; omega
    have hrest : ((around key rows row (rest++[first])).drop (k*n)).take (more*n)=
        (around key rows row (rest++[first])).drop (k*n) := by
      refine List.take_of_length_le ?_
      rw [List.length_drop,hlength]
      rw [Nat.add_mul] at hcount
      omega
    rw [pages_switch,hrest] at hperm
    have hdisjoint := List.disjoint_of_nodup_append (hperm.nodup_iff.mpr hrows)
    refine hdisjoint (a := first) ?_ ?_
    · obtain ⟨d,hd⟩ := Nat.exists_eq_add_of_lt hlow
      unfold around
      rw [List.take_append,hless,hd,Nat.add_assoc,Nat.add_sub_cancel_left,List.cons_append,
        List.take_succ_cons]
      exact List.mem_append_right _ List.mem_cons_self
    · have hsplit : around key rows row (rest++[first])=
          (sorted key (rows.filter fun other => key other<key row)++rest)++
            first::sorted key (rows.filter fun other => key row<key other) := by
        unfold around
        simp only [List.append_assoc,List.singleton_append]
      rw [hsplit,List.drop_append_of_le_length (by rw [List.length_append,hless]; omega)]
      exact List.mem_append_right _ List.mem_cons_self

/-- Pages of distinct rows contain each of them once, whatever the orders of
their executions, exactly when no boundary falls inside a group with one key. -/
theorem pages_perm_iff (hrows : rows.Nodup) {n count : ℕ} (hcount : rows.length ≤ count*n) :
    (∀ listings : ℕ → List ρ,(∀ k,Admissible key rows (listings k)) →
        (pages listings n count).Perm rows) ↔ Aligned key rows n := by
  constructor
  · intro hall row hmem k
    by_contra hinside
    obtain ⟨hlow,hhigh⟩ := not_or.mp hinside
    obtain ⟨listings,hadmissible,hnot⟩ := not_pages_perm hrows (not_le.mp hlow) (not_le.mp hhigh)
    exact hnot count hcount (hall listings hadmissible)
  · exact fun haligned listings hadmissible => pages_perm haligned hadmissible hcount

/-- How an execution orders the rows of a query. -/
structure Arrangement (key : ρ → κ) where
  /-- The listing of the rows. -/
  order : List ρ → List ρ
  /-- The query may answer it. -/
  admissible : ∀ rows,Admissible key rows (order rows)

/-- Sorting the rows. -/
def Arrangement.ofSort (key : ρ → κ) : Arrangement key :=
  ⟨sorted key,fun rows => ⟨List.mergeSort_perm _ _,sorted_pairwise key rows⟩⟩

/-- Every listing of the rows is one that some execution chooses. -/
theorem exists_arrangement {listing : List ρ} (h : Admissible key rows listing) :
    ∃ arrangement : Arrangement key,arrangement.order rows=listing := by
  classical
  refine ⟨⟨fun others => if others=rows then listing else sorted key others,fun others => ?_⟩,
    if_pos rfl⟩
  split
  · next heq => exact heq ▸ h
  · exact (Arrangement.ofSort key).admissible others

/-- Pages of executions that choose their orders freely. -/
theorem pages_arranged_iff (hrows : rows.Nodup) {n count : ℕ} (hcount : rows.length ≤ count*n) :
    (∀ arrangements : ℕ → Arrangement key,
        (pages (fun k => (arrangements k).order rows) n count).Perm rows) ↔ Aligned key rows n := by
  rw [←pages_perm_iff hrows hcount]
  constructor
  · intro hall listings hadmissible
    choose arrangements harrangements using fun k => exists_arrangement (hadmissible k)
    simpa only [harrangements] using hall arrangements
  · exact fun hall arrangements => hall _ fun k => (arrangements k).admissible rows

end incomplete

section images

variable {σ : Type*} {rows : List ρ}

/-- Pages contain rows of their listings. -/
theorem mem_of_mem_pages {listings : ℕ → List ρ} {n count : ℕ}
    (h : ∀ k,(listings k).Perm rows) {row : ρ} (hmem : row ∈ pages listings n count) :
    row ∈ rows := by
  obtain ⟨k,_,hpage⟩ := List.mem_flatMap.mp hmem
  exact (h k).mem_iff.mp (List.mem_of_mem_drop (List.mem_of_mem_take hpage))

/-- Rows with distinct images can be told from them. -/
theorem map_perm_iff {image : ρ → σ} {listed : List ρ} (hsubset : listed ⊆ rows)
    (hdistinct : (rows.map image).Nodup) :
    (listed.map image).Perm (rows.map image) ↔ listed.Perm rows := by
  constructor
  · intro hperm
    have hnodup : listed.Nodup := (hperm.nodup_iff.mpr hdistinct).of_map
    have hlength := hperm.length_eq
    rw [List.length_map,List.length_map] at hlength
    exact (List.subperm_of_subset hnodup hsubset).perm_of_length_le hlength.ge
  · exact fun hperm => hperm.map image

end images

end Photogram.PagedQuery
