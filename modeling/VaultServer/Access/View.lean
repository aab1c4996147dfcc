import VaultServer.Access.Sync

/-!
# When two databases show a user the same

What a user sees of a cipher is whether the vault lists it and, where it does, the flags of the
single-cipher check. Both depend on few rows: the memberships of the user, their groups, the direct
assignments and the group rights on the collections of the cipher. Two databases that differ in
the group rights alone show the cipher alike exactly when the rights the second has on top neither
open the cipher nor permit anything the others do not.
-/

namespace VaultServer

open Lib List

namespace Access

/-- The cipher is listed in both or in neither, and where it is listed its flags are the same. -/
def SameOn (cfg : Config) (db db' : Db) (u : UserId) (c : Cipher) : Prop :=
  (c ∈ Cipher.findByUserVisible cfg db' u ↔ c ∈ Cipher.findByUserVisible cfg db u) ∧
    (c ∈ Cipher.findByUserVisible cfg db u →
      Cipher.getAccessRestrictions cfg db' c u none = Cipher.getAccessRestrictions cfg db c u none)

def SameView (cfg : Config) (db db' : Db) (u : UserId) : Prop := ∀ c, SameOn cfg db db' u c

theorem SameOn.symm {cfg db db' u c} (h : SameOn cfg db db' u c) : SameOn cfg db' db u c :=
  ⟨h.1.symm, fun hc => (h.2 (h.1.1 hc)).symm⟩

/-- `cg` gives the groups of the membership a right on a collection of the cipher. -/
def GroupOn (db : Db) (c : Cipher) (m : Membership) (cg : CollectionGroup) : Prop :=
  ∃ k, Linked db c k ∧ ByGroup db m k cg

/-- Access without restrictions: no collection is asked. -/
def Unrestricted (cfg : Config) (db : Db) (u : UserId) (c : Cipher) : Prop :=
  c.userUuid = some u ∨
    (∃ m, ConfirmedIn db u c m ∧ (m.accessAll = true ∨ MembershipType.admin ≤ m.atype)) ∨
    cfg.orgGroupsEnabled = true ∧ ∃ m g, MemberOf db u m ∧ c.organizationUuid = some m.orgUuid ∧
      GroupOf db m g ∧ g.accessAll = true

/-- The vault lists the cipher when the group rights on it are `G`. -/
def OpenWith (cfg : Config) (db : Db) (u : UserId) (c : Cipher)
    (G : Membership → CollectionGroup → Prop) : Prop :=
  c.userUuid = some u ∨ ∃ m, ConfirmedIn db u c m ∧ (m.accessAll = true ∨
    (∃ cu, DirectOn db c u cu) ∨ cfg.orgGroupsEnabled = true ∧
      ((∃ g, GroupOf db m g ∧ g.accessAll = true) ∨ ∃ cg, G m cg))

/-- The rights `N` on top of `G` change nothing: whoever they open the cipher to has it open
already, and where restrictions apply they permit nothing beyond `G`. -/
structure Covers (cfg : Config) (db : Db) (u : UserId) (c : Cipher)
    (G N : Membership → CollectionGroup → Prop) : Prop where
  opened : cfg.orgGroupsEnabled = true → ∀ m cg, ConfirmedIn db u c m → N m cg →
    OpenWith cfg db u c G
  flags : cfg.orgGroupsEnabled = true → OpenWith cfg db u c G →
    Unrestricted cfg db u c ∨ (∃ cu, DirectOn db c u cu) ∨
      ∀ m cg, MemberOf db u m → N m cg → ∀ p : Permission, p.granted cg.flags = true →
        ∃ m' cg', MemberOf db u m' ∧ G m' cg' ∧ p.granted cg'.flags = true

/-- For `u` and `c` the second database has the rows of the first, with `G` for the group rights. -/
structure Shows (db : Db) (u : UserId) (c : Cipher) (G : Membership → CollectionGroup → Prop)
    (db' : Db) : Prop where
  cipher : c ∈ db'.ciphers.rows ↔ c ∈ db.ciphers.rows
  member : ∀ m, MemberOf db' u m ↔ MemberOf db u m
  group : ∀ m, MemberOf db u m → ∀ g, GroupOf db' m g ↔ GroupOf db m g
  direct : ∀ cu, DirectOn db' c u cu ↔ DirectOn db c u cu
  byGroup : ∀ m, MemberOf db u m → ∀ cg, GroupOn db' c m cg ↔ G m cg

theorem Shows.refl (db : Db) (u : UserId) (c : Cipher) : Shows db u c (GroupOn db c) db :=
  ⟨.rfl, fun _ => .rfl, fun _ _ _ => .rfl, fun _ => .rfl, fun _ _ _ => .rfl⟩

section
variable {cfg : Config} {db db' : Db} {u : UserId} {c : Cipher}
  {G N : Membership → CollectionGroup → Prop}

theorem path_iff : Path cfg db c u m ↔ m.accessAll = true ∨
    (∃ cu, DirectOn db c u cu) ∨ cfg.orgGroupsEnabled = true ∧
      ((∃ g, GroupOf db m g ∧ g.accessAll = true) ∨ ∃ cg, GroupOn db c m cg) := by
  constructor
  · intro h
    cases h with
    | accessAll h => exact .inl h
    | direct hl hd => exact .inr (.inl ⟨_, _, hl, hd⟩)
    | fullGroup he hg ha => exact .inr (.inr ⟨he, .inl ⟨_, hg, ha⟩⟩)
    | group he hl hg => exact .inr (.inr ⟨he, .inr ⟨_, _, hl, hg⟩⟩)
  · rintro (h | ⟨cu, k, hl, hd⟩ | ⟨he, ⟨g, hg, ha⟩ | ⟨cg, k, hl, hg⟩⟩)
    · exact .accessAll h
    · exact .direct hl hd
    · exact .fullGroup he hg ha
    · exact .group he hl hg

theorem mem_findByUserVisible : c ∈ Cipher.findByUserVisible cfg db u ↔
    c ∈ db.ciphers.rows ∧ OpenWith cfg db u c (GroupOn db c) := by
  rw [Cipher.findByUserVisible, mem_findByUser]
  simp only [path_iff, OpenWith, Bool.true_eq_false, false_and, or_false]

theorem Shows.confirmedIn (h : Shows db u c G db') :
    ConfirmedIn db' u c m ↔ ConfirmedIn db u c m := by
  unfold ConfirmedIn
  rw [h.member m]

theorem Shows.listed (h : Shows db u c G db') :
    c ∈ Cipher.findByUserVisible cfg db' u ↔ c ∈ db.ciphers.rows ∧ OpenWith cfg db u c G := by
  rw [mem_findByUserVisible, h.cipher]
  have hopen : OpenWith cfg db' u c (GroupOn db' c) ↔ OpenWith cfg db u c G := by
    unfold OpenWith
    simp only [h.confirmedIn, h.direct]
    refine or_congr_right (exists_congr fun m => and_congr_right fun hm => ?_)
    simp only [h.group m hm.1, h.byGroup m hm.1]
  rw [hopen]

theorem Shows.unrestricted (h : Shows db u c G db') :
    Cipher.hasFullAccess cfg db' c u none = true ↔ Unrestricted cfg db u c := by
  rw [hasFullAccess_iff, Unrestricted]
  simp only [h.confirmedIn, h.member]
  refine or_congr_right (or_congr_right (and_congr_right fun _ =>
    exists_congr fun m => exists_congr fun g => and_congr_right fun hm => ?_))
  rw [h.group m hm]

/-! ## The rows of the single-cipher check -/

/-- A row the check combines: direct assignments, or the group rights `G` where there are none. -/
def FlagRow (cfg : Config) (db : Db) (u : UserId) (c : Cipher)
    (G : Membership → CollectionGroup → Prop) (f : Flags) : Prop :=
  (∃ cu, DirectOn db c u cu ∧ f = cu.flags) ∨ (¬ ∃ cu, DirectOn db c u cu) ∧
    cfg.orgGroupsEnabled = true ∧ ∃ m cg, MemberOf db u m ∧ G m cg ∧ f = cg.flags

theorem mem_liveFlags (hc : c ∈ db.ciphers.rows) :
    f ∈ Cipher.liveFlags cfg db c u ↔ FlagRow cfg db u c (GroupOn db c) f := by
  have huser : f ∈ Cipher.getUserCollectionsAccessFlags db c u ↔
      ∃ cu, DirectOn db c u cu ∧ f = cu.flags := by
    rw [mem_getUserCollectionsAccessFlags hc]
    exact ⟨fun ⟨k, cu, hl, hd, hf⟩ => ⟨cu, ⟨k, hl, hd⟩, hf⟩,
      fun ⟨cu, ⟨k, hl, hd⟩, hf⟩ => ⟨k, cu, hl, hd, hf⟩⟩
  have hgroup : f ∈ Cipher.getGroupCollectionsAccessFlags cfg db c u ↔
      cfg.orgGroupsEnabled = true ∧ ∃ m cg, MemberOf db u m ∧ GroupOn db c m cg ∧ f = cg.flags := by
    rw [mem_getGroupCollectionsAccessFlags hc]
    exact ⟨fun ⟨he, m, k, cg, hm, hl, hb, hf⟩ => ⟨he, m, cg, hm, ⟨k, hl, hb⟩, hf⟩,
      fun ⟨he, m, cg, hm, ⟨k, hl, hb⟩, hf⟩ => ⟨he, m, k, cg, hm, hl, hb, hf⟩⟩
  have hnone : Cipher.getUserCollectionsAccessFlags db c u = [] ↔ ¬ ∃ cu, DirectOn db c u cu := by
    rw [eq_nil_iff_forall_not_mem]
    constructor
    · rintro h ⟨cu, k, hl, hd⟩
      exact h cu.flags ((mem_getUserCollectionsAccessFlags hc).2 ⟨k, cu, hl, hd, rfl⟩)
    · intro h g hg
      obtain ⟨k, cu, hl, hd, -⟩ := (mem_getUserCollectionsAccessFlags hc).1 hg
      exact h ⟨cu, k, hl, hd⟩
  unfold Cipher.liveFlags FlagRow
  by_cases hd : Cipher.getUserCollectionsAccessFlags db c u = []
  · have hno := hnone.1 hd
    simp only [hd, isEmpty_nil, if_true, hgroup, hno, not_false_eq_true, true_and]
    refine ⟨.inr, fun h => h.resolve_left ?_⟩
    rintro ⟨cu, hcu, -⟩
    exact hno ⟨cu, hcu⟩
  · have hyes := not_not.1 (mt hnone.2 hd)
    simp only [List.isEmpty_iff, hd, if_false, huser, hyes, not_true_eq_false, false_and, or_false]

theorem Shows.mem_liveFlags (h : Shows db u c G db') (hc : c ∈ db.ciphers.rows) :
    f ∈ Cipher.liveFlags cfg db' c u ↔ FlagRow cfg db u c G f := by
  rw [Access.mem_liveFlags (h.cipher.2 hc)]
  unfold FlagRow
  simp only [h.direct, h.member]
  refine or_congr_right (and_congr_right fun _ => and_congr_right fun _ =>
    exists_congr fun m => exists_congr fun cg => and_congr_right fun hm => ?_)
  rw [h.byGroup m hm]

theorem combineFlags_eq_iff :
    Cipher.combineFlags rows = Cipher.combineFlags rows' ↔ ∀ p : Permission,
      (∃ f ∈ rows, p.granted f = true) ↔ ∃ f ∈ rows', p.granted f = true := by
  constructor
  · intro h p
    rw [← any_eq_true, ← any_eq_true, ← Permission.granted_combineFlags,
      ← Permission.granted_combineFlags, h]
  · intro h
    refine Permission.flags_ext fun p => ?_
    rw [Permission.granted_combineFlags, Permission.granted_combineFlags, Bool.eq_iff_iff,
      any_eq_true, any_eq_true]
    exact h p

/-- Rows that are found alike are combined alike. -/
theorem restrictions_congr (hfull : Cipher.hasFullAccess cfg db c u none =
      Cipher.hasFullAccess cfg db' c u none)
    (hrows : ∀ f, f ∈ Cipher.liveFlags cfg db c u ↔ f ∈ Cipher.liveFlags cfg db' c u) :
    Cipher.getAccessRestrictions cfg db c u none = Cipher.getAccessRestrictions cfg db' c u none := by
  have hempty : (Cipher.liveFlags cfg db c u).isEmpty = (Cipher.liveFlags cfg db' c u).isEmpty := by
    rw [Bool.eq_iff_iff, List.isEmpty_iff, List.isEmpty_iff, List.eq_nil_iff_forall_not_mem,
      eq_nil_iff_forall_not_mem]
    simp only [hrows]
  have hcombine : Cipher.combineFlags (Cipher.liveFlags cfg db c u) =
      Cipher.combineFlags (Cipher.liveFlags cfg db' c u) := by
    rw [combineFlags_eq_iff]
    simp only [hrows, implies_true]
  unfold Cipher.getAccessRestrictions
  simp only [hfull, hempty, hcombine]

/-! ## More group rights -/

theorem openWith_or : OpenWith cfg db u c (fun m cg => G m cg ∨ N m cg) ↔ OpenWith cfg db u c G ∨
    cfg.orgGroupsEnabled = true ∧ ∃ m cg, ConfirmedIn db u c m ∧ N m cg := by
  constructor
  · rintro (h | ⟨m, hm, h | h | ⟨he, h | ⟨cg, h | h⟩⟩⟩)
    · exact .inl (.inl h)
    · exact .inl (.inr ⟨m, hm, .inl h⟩)
    · exact .inl (.inr ⟨m, hm, .inr (.inl h)⟩)
    · exact .inl (.inr ⟨m, hm, .inr (.inr ⟨he, .inl h⟩)⟩)
    · exact .inl (.inr ⟨m, hm, .inr (.inr ⟨he, .inr ⟨cg, h⟩⟩)⟩)
    · exact .inr ⟨he, m, cg, hm, h⟩
  · rintro ((h | ⟨m, hm, h | h | ⟨he, h | ⟨cg, h⟩⟩⟩) | ⟨he, m, cg, hm, h⟩)
    · exact .inl h
    · exact .inr ⟨m, hm, .inl h⟩
    · exact .inr ⟨m, hm, .inr (.inl h)⟩
    · exact .inr ⟨m, hm, .inr (.inr ⟨he, .inl h⟩)⟩
    · exact .inr ⟨m, hm, .inr (.inr ⟨he, .inr ⟨cg, .inl h⟩⟩)⟩
    · exact .inr ⟨m, hm, .inr (.inr ⟨he, .inr ⟨cg, .inr h⟩⟩)⟩

/-- A restricted cipher without a direct assignment is open through a group right. -/
theorem OpenWith.exists_group (h : OpenWith cfg db u c G) (hfull : ¬ Unrestricted cfg db u c)
    (hd : ¬ ∃ cu, DirectOn db c u cu) :
    cfg.orgGroupsEnabled = true ∧ ∃ m cg, MemberOf db u m ∧ G m cg := by
  rcases h with h | ⟨m, hm, h | h | ⟨he, ⟨g, hg, ha⟩ | ⟨cg, h⟩⟩⟩
  · exact absurd (.inl h) hfull
  · exact absurd (.inr (.inl ⟨m, hm, .inl h⟩)) hfull
  · exact absurd h hd
  · exact absurd (.inr (.inr ⟨he, m, g, hm.1, hm.2.1, hg, ha⟩)) hfull
  · exact ⟨he, m, cg, hm.1, h⟩

theorem FlagRow.of_no_direct (hd : ¬ ∃ cu, DirectOn db c u cu) (he : cfg.orgGroupsEnabled = true) :
    FlagRow cfg db u c G f ↔ ∃ m cg, MemberOf db u m ∧ G m cg ∧ f = cg.flags := by
  unfold FlagRow
  simp only [hd, not_false_eq_true, he, true_and]
  refine ⟨fun h => h.resolve_left ?_, .inr⟩
  rintro ⟨cu, hcu, -⟩
  exact hd ⟨cu, hcu⟩

variable {db1 db2 : Db}

/-- The flags of an open cipher stay when the rights on top permit nothing more. -/
theorem restrictions_eq_iff (h1 : Shows db u c G db1)
    (h2 : Shows db u c (fun m cg => G m cg ∨ N m cg) db2) (hc : c ∈ db.ciphers.rows)
    (hopen : OpenWith cfg db u c G) :
    Cipher.getAccessRestrictions cfg db2 c u none = Cipher.getAccessRestrictions cfg db1 c u none ↔
      Unrestricted cfg db u c ∨ (∃ cu, DirectOn db c u cu) ∨
        ∀ m cg, MemberOf db u m → N m cg → ∀ p : Permission, p.granted cg.flags = true →
          ∃ m' cg', MemberOf db u m' ∧ G m' cg' ∧ p.granted cg'.flags = true := by
  have hfull : Cipher.hasFullAccess cfg db2 c u none = Cipher.hasFullAccess cfg db1 c u none := by
    rw [Bool.eq_iff_iff, h1.unrestricted, h2.unrestricted]
  by_cases hun : Unrestricted cfg db u c
  · simp [Cipher.getAccessRestrictions, h1.unrestricted.2 hun, h2.unrestricted.2 hun, hun]
  by_cases hd : ∃ cu, DirectOn db c u cu
  · refine iff_of_true (restrictions_congr hfull fun f => ?_) (.inr (.inl hd))
    rw [h1.mem_liveFlags hc, h2.mem_liveFlags hc]
    simp only [FlagRow, hd, not_true_eq_false, false_and]
  -- the group rights decide, and there are some in both databases
  obtain ⟨he, m0, cg0, hm0, hg0⟩ := hopen.exists_group hun hd
  have hrow1 : ∀ f, f ∈ Cipher.liveFlags cfg db1 c u ↔ _ := fun f =>
    (h1.mem_liveFlags hc).trans (FlagRow.of_no_direct hd he)
  have hrow2 : ∀ f, f ∈ Cipher.liveFlags cfg db2 c u ↔ _ := fun f =>
    (h2.mem_liveFlags hc).trans (FlagRow.of_no_direct hd he)
  have hne1 := ne_nil_of_mem ((hrow1 _).2 ⟨m0, cg0, hm0, hg0, rfl⟩)
  have hne2 := ne_nil_of_mem ((hrow2 _).2 ⟨m0, cg0, hm0, .inl hg0, rfl⟩)
  have hno1 : Cipher.hasFullAccess cfg db1 c u none = false :=
    Bool.eq_false_iff.2 (mt h1.unrestricted.1 hun)
  simp only [Cipher.getAccessRestrictions, hfull, hno1, Bool.false_eq_true, if_false,
    List.isEmpty_iff, hne1, hne2, Option.some.injEq, combineFlags_eq_iff, hrow1, hrow2, hun, hd,
    false_or]
  constructor
  · intro h m cg hm hn p hp
    obtain ⟨f, ⟨m', cg', hm', hg', rfl⟩, hp'⟩ := (h p).1 ⟨_, ⟨m, cg, hm, .inr hn, rfl⟩, hp⟩
    exact ⟨m', cg', hm', hg', hp'⟩
  · intro h p
    constructor
    · rintro ⟨f, ⟨m, cg, hm, hg | hn, rfl⟩, hp⟩
      · exact ⟨_, ⟨m, cg, hm, hg, rfl⟩, hp⟩
      · obtain ⟨m', cg', hm', hg', hp'⟩ := h m cg hm hn p hp
        exact ⟨_, ⟨m', cg', hm', hg', rfl⟩, hp'⟩
    · rintro ⟨f, ⟨m, cg, hm, hg, rfl⟩, hp⟩
      exact ⟨_, ⟨m, cg, hm, .inl hg, rfl⟩, hp⟩

/-- **Two databases that differ in group rights show a cipher alike exactly when the rights on top
are covered.** -/
theorem sameOn_iff_covers (h1 : Shows db u c G db1)
    (h2 : Shows db u c (fun m cg => G m cg ∨ N m cg) db2) (hc : c ∈ db.ciphers.rows) :
    SameOn cfg db1 db2 u c ↔ Covers cfg db u c G N := by
  unfold SameOn
  rw [h1.listed, h2.listed]
  simp only [hc, true_and]
  rw [openWith_or]
  constructor
  · rintro ⟨hlist, hflags⟩
    refine ⟨fun he m cg hm hn => hlist.1 (.inr ⟨he, m, cg, hm, hn⟩), fun _ hopen => ?_⟩
    exact (restrictions_eq_iff h1 h2 hc hopen).1 (hflags hopen)
  · rintro ⟨hopened, hflags⟩
    refine ⟨⟨?_, .inl⟩, fun hopen => (restrictions_eq_iff h1 h2 hc hopen).2 ?_⟩
    · rintro (h | ⟨he, m, cg, hm, hn⟩)
      · exact h
      · exact hopened he m cg hm hn
    · by_cases he : cfg.orgGroupsEnabled = true
      · exact hflags he hopen
      · by_contra hno
        rw [not_or, not_or] at hno
        exact he (hopen.exists_group hno.1 hno.2.1).1

/-- The same rights show the same. -/
theorem Shows.sameOn (h : Shows db u c (GroupOn db c) db') : SameOn cfg db db' u c := by
  by_cases hc : c ∈ db.ciphers.rows
  · have h' : Shows db u c (fun m cg => GroupOn db c m cg ∨ False) db' := by
      simpa only [or_false] using h
    refine (sameOn_iff_covers (Shows.refl db u c) h' hc).2 ⟨?_, ?_⟩
    · exact fun _ _ _ _ hn => hn.elim
    · exact fun _ _ => .inr (.inr fun _ _ _ hn => hn.elim)
  · refine ⟨?_, fun hl => absurd (mem_findByUserVisible.1 hl).1 hc⟩
    rw [h.listed, (Shows.refl db u c).listed]

end

end Access

end VaultServer
