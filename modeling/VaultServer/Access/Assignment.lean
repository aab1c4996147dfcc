import VaultServer.Access.Entry
import VaultServer.Access.SelfGrant

/-!
# The collections of a cipher

A user posts the collections that a cipher is to be in. The request walks through those that are
posted and not shown to the user, and those that are shown and not posted, and adds or removes one
link after the other; each collection is checked when its turn comes. What is left at the end is
what was posted, and the links that the user is not shown. When a check fails on the way, the links
that were changed before stay changed.
-/

namespace VaultServer

open Lib Access

variable {cfg : Config} {db : Db} {u : UserId} {m : Membership} {c : Cipher} {k : CollectionId}
  {org : OrganizationId}

/-! ## Rights to change a collection -/

/-- The member may change what is in the collection, whatever its role is. -/
def Granted (cfg : Config) (db : Db) (u : UserId) (m : Membership) (k : CollectionId) : Prop :=
  m.accessAll = true ∨ (∃ cu, Direct db u k cu ∧ cu.readOnly = false) ∨
    cfg.orgGroupsEnabled = true ∧ ((∃ g, GroupOf db m g ∧ g.accessAll = true) ∨
      ∃ cg, ByGroup db m k cg ∧ cg.readOnly = false)

/-- Those rows of a query that are `shown` have the rights of the member on the collection, and
nothing else. -/
structure ShowsRights (cfg : Config) (db : Db) (u : UserId) (m : Membership) (k : CollectionId)
    (shown : JoinRow → Prop) : Prop where
  member : ∀ r, shown r → r.usersOrganizations = some m
  direct : ∀ cu, (∃ r, shown r ∧ r.usersCollections = some cu) ↔ Direct db u k cu
  group : ∀ g, (∃ r, shown r ∧ r.groups = some g) ↔ cfg.orgGroupsEnabled = true ∧ GroupOf db m g
  right : ∀ cg, (∃ r, shown r ∧ r.collectionsGroups = some cg) ↔
    cfg.orgGroupsEnabled = true ∧ ByGroup db m k cg
  row : ∃ r, shown r

theorem ShowsRights.granted_iff {shown} (h : ShowsRights cfg db u m k shown) :
    (∃ r, shown r ∧ Cipher.writableRow u r = true) ↔ Granted cfg db u m k := by
  constructor
  · rintro ⟨r, hr, hw⟩
    simp only [Cipher.writableRow, Bool.or_eq_true, any_iff] at hw
    rcases hw with ((⟨x, hx, ha⟩ | ⟨cu, hcu, hp⟩) | ⟨g, hg, ha⟩) | ⟨cg, hcg, hp⟩
    · obtain rfl : m = x := Option.some.inj ((h.member r hr).symm.trans hx)
      exact .inl ha
    · have hp : cu.userUuid = u ∧ cu.readOnly = false := by simpa using hp
      exact .inr (.inl ⟨cu, (h.direct cu).1 ⟨r, hr, hcu⟩, hp.2⟩)
    · obtain ⟨he, hgo⟩ := (h.group g).1 ⟨r, hr, hg⟩
      exact .inr (.inr ⟨he, .inl ⟨g, hgo, ha⟩⟩)
    · obtain ⟨he, hby⟩ := (h.right cg).1 ⟨r, hr, hcg⟩
      exact .inr (.inr ⟨he, .inr ⟨cg, hby, by simpa using hp⟩⟩)
  · rintro (ha | ⟨cu, hd, hro⟩ | ⟨he, ⟨g, hg, ha⟩ | ⟨cg, hcg, hro⟩⟩)
    · obtain ⟨r, hr⟩ := h.row
      exact ⟨r, hr, by simp [Cipher.writableRow, h.member r hr, ha]⟩
    · obtain ⟨r, hr, hcu⟩ := (h.direct cu).2 hd
      exact ⟨r, hr, by simp [Cipher.writableRow, hcu, hd.2.1, hro]⟩
    · obtain ⟨r, hr, hrg⟩ := (h.group g).2 ⟨he, hg⟩
      exact ⟨r, hr, by simp [Cipher.writableRow, hrg, ha]⟩
    · obtain ⟨r, hr, hrc⟩ := (h.right cg).2 ⟨he, hcg⟩
      exact ⟨r, hr, by simp [Cipher.writableRow, hrc, hro]⟩

/-- The same of rows before the tables of the groups are joined. -/
structure ShowsMember (db : Db) (u : UserId) (m : Membership) (k : CollectionId)
    (shown : JoinRow → Prop) : Prop where
  member : ∀ r, shown r → r.usersOrganizations = some m
  direct : ∀ cu, (∃ r, shown r ∧ r.usersCollections = some cu) ↔ Direct db u k cu
  ungrouped : ∀ r, shown r → r.groups = none ∧ r.collectionsGroups = none
  row : ∃ r, shown r

namespace ShowsMember

variable {shown : JoinRow → Prop} {rows : List JoinRow}

theorem ofMember (h : ShowsMember db u m k shown) (he : cfg.orgGroupsEnabled = false) :
    ShowsRights cfg db u m k shown where
  member := h.member
  direct := h.direct
  group g := by
    simp only [he, Bool.false_eq_true, false_and, iff_false]
    rintro ⟨r, hr, hg⟩
    rw [(h.ungrouped r hr).1] at hg
    cases hg
  right cg := by
    simp only [he, Bool.false_eq_true, false_and, iff_false]
    rintro ⟨r, hr, hg⟩
    rw [(h.ungrouped r hr).2] at hg
    cases hg
  row := h.row

/-- The rows of one collection and one membership, each with an assignment of the user. -/
theorem ofAssignments {b : JoinRow} (hm : b.usersOrganizations = some m)
    (hg : b.groups = none ∧ b.collectionsGroups = none)
    (h : ∀ r, shown r ↔ ∃ o ∈ padded db.usersCollections.rows
      (fun cu => cu.collectionUuid = k ∧ cu.userUuid = u), r = { b with usersCollections := o }) :
    ShowsMember db u m k shown where
  member r hr := by
    obtain ⟨o, -, rfl⟩ := (h r).1 hr
    exact hm
  direct cu := by
    constructor
    · rintro ⟨r, hr, hcu⟩
      obtain ⟨o, ho, rfl⟩ := (h r).1 hr
      obtain rfl : o = some cu := hcu
      have hon := some_mem_padded.1 ho
      simp only [Bool.decide_and, Bool.and_eq_true, decide_eq_true_eq] at hon
      exact ⟨hon.1, hon.2.2, hon.2.1⟩
    · intro hd
      exact ⟨_, (h _).2 ⟨some cu, some_mem_padded.2 ⟨hd.1, by simp [hd.2]⟩, rfl⟩, rfl⟩
  ungrouped r hr := by
    obtain ⟨o, -, rfl⟩ := (h r).1 hr
    exact hg
  row := by
    obtain ⟨o, ho⟩ := exists_mem_padded db.usersCollections.rows fun cu =>
      cu.collectionUuid = k ∧ cu.userUuid = u
    exact ⟨_, (h _).2 ⟨o, ho, rfl⟩⟩

/-- The group tables joined to the rows; `on` joins the right of a group. It has to be a right of
one of the member's groups, and each of them has to show up. -/
theorem joinGroups {p : JoinRow → Prop} {on : JoinRow → CollectionGroup → Bool}
    (h : ShowsMember db u m k fun r => r ∈ rows ∧ p r) (he : cfg.orgGroupsEnabled = true)
    (hp : ∀ r gu g cg, p { r with groupsUsers := gu, groups := g, collectionsGroups := cg } ↔ p r)
    (hsound : ∀ r ∈ rows, p r → ∀ gu g cg, (∀ x ∈ gu, x ∈ db.groupsUsers.rows ∧
      x.usersOrganizationsUuid = m.uuid) → (∀ x ∈ g, GroupOf db m x) →
      cg ∈ db.collectionsGroups.rows → on { r with groupsUsers := gu, groups := g } cg = true →
      ByGroup db m k cg)
    (hcomplete : ∀ r ∈ rows, p r → ∀ gu g cg, gu.groupsUuid = g.uuid → cg.collectionsUuid = k →
      cg.groupsUuid = g.uuid → on { r with groupsUsers := some gu, groups := some g } cg = true) :
    ShowsRights cfg db u m k fun r => r ∈ leftJoin
      (JoinRow.withGroups db (JoinRow.withGroupsUsers db rows)) db.collectionsGroups.rows on
      (fun r o => { r with collectionsGroups := o }) ∧ p r where
  member r hr := by
    obtain ⟨r0, hr0, gu, -, g, -, cg, -, rfl⟩ := mem_joinGroups.1 hr.1
    exact h.member r0 ⟨hr0, (hp ..).1 hr.2⟩
  direct cu := by
    rw [← h.direct cu]
    constructor
    · rintro ⟨r, hr, hcu⟩
      obtain ⟨r0, hr0, gu, -, g, -, cg, -, rfl⟩ := mem_joinGroups.1 hr.1
      exact ⟨r0, ⟨hr0, (hp ..).1 hr.2⟩, hcu⟩
    · rintro ⟨r, hr, hcu⟩
      obtain ⟨r', hr', gu, g, cg, rfl⟩ := exists_joinGroups db on hr.1
      exact ⟨_, ⟨hr', (hp ..).2 hr.2⟩, hcu⟩
  group g := by
    simp only [he, true_and]
    constructor
    · rintro ⟨r, hr, hrg⟩
      obtain ⟨r0, hr0, gu, hgu, og, hg, cg, -, rfl⟩ := mem_joinGroups.1 hr.1
      obtain rfl : og = some g := hrg
      obtain ⟨x, hx, hgo⟩ := groupOf_of_padded hgu hg
      rw [h.member r0 ⟨hr0, (hp ..).1 hr.2⟩] at hx
      exact Option.some.inj hx ▸ hgo
    · rintro ⟨hgm, horg, gu, hgu, hgg, hgum⟩
      obtain ⟨r, hr⟩ := h.row
      obtain ⟨cg, hcg⟩ := exists_mem_padded db.collectionsGroups.rows _
      refine ⟨_, ⟨mem_joinGroups.2 ⟨r, hr.1, some gu, ?_, some g, ?_, cg, hcg, rfl⟩,
        (hp ..).2 hr.2⟩, rfl⟩
      · exact some_mem_padded.2 ⟨hgu, by simp [h.member r hr, hgum]⟩
      · exact some_mem_padded.2 ⟨hgm, by simp [h.member r hr, hgg, horg]⟩
  right cg := by
    simp only [he, true_and]
    constructor
    · rintro ⟨r, hr, hrg⟩
      obtain ⟨r0, hr0, gu, hgu, g, hg, ocg, hcg, rfl⟩ := mem_joinGroups.1 hr.1
      obtain rfl : ocg = some cg := hrg
      have hr : p r0 := (hp ..).1 hr.2
      have hm := h.member r0 ⟨hr0, hr⟩
      obtain ⟨hcgm, hon⟩ := some_mem_padded.1 hcg
      refine hsound r0 hr0 hr gu g cg (fun x hx => ?_) (fun x hx => ?_) hcgm hon
      · obtain rfl := hx
        simpa [hm] using some_mem_padded.1 hgu
      · obtain rfl := hx
        obtain ⟨n, hn, hgo⟩ := groupOf_of_padded hgu hg
        exact Option.some.inj (hm.symm.trans hn) ▸ hgo
    · rintro ⟨g, ⟨hgm, horg, gu, hgu, hgg, hgum⟩, hcgm, hk, hcgg⟩
      obtain ⟨r, hr⟩ := h.row
      refine ⟨_, ⟨mem_joinGroups.2 ⟨r, hr.1, some gu, ?_, some g, ?_, some cg, ?_, rfl⟩,
        (hp ..).2 hr.2⟩, rfl⟩
      · exact some_mem_padded.2 ⟨hgu, by simp [h.member r hr, hgum]⟩
      · exact some_mem_padded.2 ⟨hgm, by simp [h.member r hr, hgg, horg]⟩
      · exact some_mem_padded.2 ⟨hcgm, hcomplete r hr.1 hr.2 gu g cg hgg hk hcgg⟩
  row := by
    obtain ⟨r, hr⟩ := h.row
    obtain ⟨r', hr', gu, g, cg, rfl⟩ := exists_joinGroups db on hr.1
    exact ⟨_, hr', (hp ..).2 hr.2⟩

/-- To the rows of one link. -/
theorem withGroupRights (h : ShowsMember db u m cc.collectionUuid
      fun r => r ∈ rows ∧ r.ciphersCollections = some cc) (he : cfg.orgGroupsEnabled = true) :
    ShowsRights cfg db u m cc.collectionUuid
      fun r => r ∈ JoinRow.withGroupRights db rows ∧ r.ciphersCollections = some cc := by
  refine h.joinGroups he (fun _ _ _ _ => Iff.rfl) (fun r _ hcc gu g cg _ hg hcg hon => ?_) ?_
  · simp only [hcc, Option.any_some, Bool.decide_and, Bool.and_eq_true, decide_eq_true_eq,
      any_iff] at hon
    obtain ⟨hk, x, rfl, hxg⟩ := hon
    exact ⟨x, hg x rfl, hcg, hk, hxg⟩
  · intro r _ hcc gu g cg _ hk hcgg
    simp [hcc, hk, hcgg]

/-- To the rows of one collection. The right is joined by `groups_users`, so that it is one of the
member's own groups rests on the boundary. -/
theorem withMemberGroups (hb : OrgBoundary db) (hmem : m ∈ db.usersOrganizations.rows)
    (h : ShowsMember db u m k (· ∈ rows)) (he : cfg.orgGroupsEnabled = true)
    (hcol : ∀ r ∈ rows, ∃ x, r.collections = some x ∧ x.uuid = k) :
    ShowsRights cfg db u m k (· ∈ JoinRow.withMemberGroups db rows) := by
  have h : ShowsMember db u m k fun r => r ∈ rows ∧ True := by simpa only [and_true] using h
  suffices ShowsRights cfg db u m k fun r => r ∈ JoinRow.withMemberGroups db rows ∧ True by
    simpa only [and_true] using this
  refine h.joinGroups he (fun _ _ _ _ => Iff.rfl) ?_ ?_
  · intro r hr _ gu g cg hgu _ hcg hon
    obtain ⟨x, hx, rfl⟩ := hcol r hr
    simp only [hx, Option.any_some, Bool.decide_and, Bool.and_eq_true, decide_eq_true_eq,
      any_iff] at hon
    obtain ⟨⟨y, rfl, hgg⟩, hk⟩ := hon
    obtain ⟨hy, hym⟩ := hgu y rfl
    obtain ⟨g, hg, hgid, n, hn, hnid, horg⟩ := hb.groupsUsers y hy
    obtain rfl : n = m := Table.eq_of_key hn hmem (hnid.trans hym)
    exact ⟨g, ⟨hg, horg.symm, y, hy, hgid.symm, hym⟩, hcg, hk, hgg.trans hgid.symm⟩
  · intro r hr _ gu g cg hgg hk hcgg
    obtain ⟨x, hx, rfl⟩ := hcol r hr
    simp [hx, hk, hcgg, hgg]

end ShowsMember

/-! ## What the queries answer to a member -/

section

variable {x : Collection} (hm : MemberOf db u m) (ho : x.orgUuid = m.orgUuid)
include hm ho

theorem memberOn_iff (hr : r.collections = some x) (hn : n ∈ db.usersOrganizations.rows) :
    JoinRow.memberOn u r n = true ↔ n = m := by
  simp only [JoinRow.memberOn, hr, Option.any_some, decide_eq_true_eq]
  constructor
  · rintro ⟨hon, hu⟩
    exact MemberOf.unique ⟨hn, hu⟩ hm (hon.symm.trans ho)
  · rintro rfl
    exact ⟨ho, hm.2⟩

/-- An outer join with the membership finds the member. -/
theorem mem_padded_memberOn (hr : r.collections = some x) :
    o ∈ padded db.usersOrganizations.rows (JoinRow.memberOn u r) ↔ o = some m := by
  rw [mem_padded]
  constructor
  · rintro (⟨n, hn, hon, rfl⟩ | ⟨hnone, -⟩)
    · rw [(memberOn_iff hm ho hr hn).1 hon]
    · have := hnone m hm.1
      rw [(memberOn_iff hm ho hr hm.1).2 rfl] at this
      cases this
  · rintro rfl
    exact .inl ⟨m, hm.1, (memberOn_iff hm ho hr hm.1).2 rfl, rfl⟩

/-- The rows of `is_writable_by_user`. -/
def writableRows (cfg : Config) (db : Db) (k : CollectionId) (u : UserId) : List JoinRow :=
  let rows := JoinRow.withAssignment db u
    (innerJoin (JoinRow.ofCollections (db.collections.rows.filter fun x => x.uuid = k))
      db.usersOrganizations.rows (JoinRow.memberOn u) fun r m => { r with usersOrganizations := some m })
  if cfg.orgGroupsEnabled then JoinRow.withMemberGroups db rows else rows

theorem writableRows_showsRights (hb : OrgBoundary db) (hx : x ∈ db.collections.rows) :
    ShowsRights cfg db u m x.uuid (· ∈ writableRows cfg db x.uuid u) := by
  have hrows : ∀ r, r ∈ JoinRow.withAssignment db u
      (innerJoin (JoinRow.ofCollections (db.collections.rows.filter fun y => y.uuid = x.uuid))
        db.usersOrganizations.rows (JoinRow.memberOn u)
        fun r m => { r with usersOrganizations := some m }) ↔
      ∃ o ∈ padded db.usersCollections.rows
        (fun cu => cu.collectionUuid = x.uuid ∧ cu.userUuid = u),
      r = ({ collections := some x, usersOrganizations := some m, usersCollections := o } :
        JoinRow) := by
    intro r
    simp only [JoinRow.withAssignment, mem_leftJoin, mem_innerJoin, JoinRow.ofCollections,
      List.mem_map, List.mem_filter, decide_eq_true_eq]
    constructor
    · rintro ⟨r1, ⟨r0, ⟨y, ⟨hy, hyx⟩, rfl⟩, n, hn, hon, rfl⟩, o, hop, rfl⟩
      obtain rfl : y = x := Table.eq_of_key hy hx hyx
      obtain rfl := (memberOn_iff hm ho rfl hn).1 hon
      exact ⟨o, by simpa using hop, rfl⟩
    · rintro ⟨o, hop, rfl⟩
      exact ⟨_, ⟨_, ⟨x, ⟨hx, rfl⟩, rfl⟩, m, hm.1, (memberOn_iff hm ho rfl hm.1).2 rfl, rfl⟩, o,
        by simpa using hop, rfl⟩
  have hshows : ShowsMember db u m x.uuid (· ∈ _) := .ofAssignments
    (b := { collections := some x, usersOrganizations := some m }) rfl ⟨rfl, rfl⟩ hrows
  unfold writableRows
  split
  · next he =>
    refine hshows.withMemberGroups hb hm.1 he fun r hr => ?_
    obtain ⟨o, -, rfl⟩ := (hrows r).1 hr
    exact ⟨x, rfl, rfl⟩
  · next he => exact hshows.ofMember (by simpa using he)

/-- **A member may write to a collection by its role or by a right of its own or of a group.** -/
theorem isWritableByUser_iff (hb : OrgBoundary db) (hx : x ∈ db.collections.rows) :
    x.isWritableByUser cfg db u = true ↔
      MembershipType.admin ≤ m.atype ∨ Granted cfg db u m x.uuid := by
  have hs : ShowsRights cfg db u m x.uuid (· ∈ writableRows cfg db x.uuid u) :=
    writableRows_showsRights hm ho hb hx
  have hrow : ∀ r ∈ writableRows cfg db x.uuid u,
      (((r.usersOrganizations.any fun m => m.atype.toI32 ≤ MembershipType.admin.toI32)
        ∨ (r.usersOrganizations.any fun m => m.accessAll)
        ∨ (r.usersCollections.any fun cu => cu.collectionUuid = x.uuid ∧ !cu.readOnly)
        ∨ (r.groups.any fun g => g.accessAll)
        ∨ (r.collectionsGroups.any fun cg => !cg.readOnly)) ↔
      MembershipType.admin ≤ m.atype ∨ Cipher.writableRow u r = true) := by
    intro r hr
    -- an assignment in the row is the user's, and of this collection
    have hcu : (r.usersCollections.any fun cu => cu.collectionUuid = x.uuid ∧ !cu.readOnly) =
        r.usersCollections.any fun cu => cu.userUuid = u ∧ !cu.readOnly := by
      cases hc : r.usersCollections with
      | none => rfl
      | some cu =>
        have hd := (hs.direct cu).1 ⟨r, hr, hc⟩
        simp [hd.2]
    rw [hcu, hs.member r hr, Option.any_some, decide_eq_true_eq, MembershipType.toI32_le_admin]
    simp only [Cipher.writableRow, hs.member r hr, Option.any_some, Bool.or_eq_true, or_assoc]
  rw [← hs.granted_iff]
  change ((writableRows cfg db x.uuid u).any fun r => decide _) = true ↔ _
  simp only [List.any_eq_true, decide_eq_true_eq]
  constructor
  · rintro ⟨r, hr, hon⟩
    exact ((hrow r hr).1 hon).imp_right fun hw => ⟨r, hr, hw⟩
  · rintro (hrole | ⟨r, hr, hw⟩)
    · obtain ⟨r, hr⟩ := hs.row
      exact ⟨r, hr, (hrow r hr).2 (.inl hrole)⟩
    · exact ⟨r, hr, (hrow r hr).2 (.inr hw)⟩

omit ho in
/-- The rows of one of the cipher's links. -/
theorem collectionRows_showsRights {cc : CollectionCipher} (hcc : cc ∈ db.ciphersCollections.rows)
    (hc : cc.cipherUuid = c.uuid) (hin : db.CollectionIn cc.collectionUuid m.orgUuid) :
    ShowsRights cfg db u m cc.collectionUuid
      fun r => r ∈ Cipher.collectionRows cfg db c u ∧ r.ciphersCollections = some cc := by
  obtain ⟨x, hx, hxk, ho⟩ := hin
  -- with and without groups the membership is found, by an outer and by an inner join
  have hrows : ∀ mid, (∀ r, (r ∈ mid ∧ r.ciphersCollections = some cc) ↔ r = ({
        ciphersCollections := some cc, collections := some x, usersOrganizations := some m } :
          JoinRow)) →
      ShowsMember db u m cc.collectionUuid fun r =>
        r ∈ JoinRow.withUsersCollections db u mid ∧ r.ciphersCollections = some cc := by
    intro mid hmid
    refine .ofAssignments (b := ⟨none, some cc, some x, some m, none, none, none, none⟩) rfl
      ⟨rfl, rfl⟩ fun r => ?_
    simp only [JoinRow.withUsersCollections, mem_leftJoin]
    constructor
    · rintro ⟨⟨r0, hr0, o, hop, rfl⟩, hr⟩
      obtain rfl := (hmid r0).1 ⟨hr0, hr⟩
      exact ⟨o, by simpa using hop, rfl⟩
    · rintro ⟨o, hop, rfl⟩
      exact ⟨⟨_, ((hmid _).2 rfl).1, o, by simpa using hop, rfl⟩, rfl⟩
  have hlinks : ∀ r, (r ∈ JoinRow.ofLinks db
      (db.ciphersCollections.rows.filter fun cc => cc.cipherUuid = c.uuid) ∧
      r.ciphersCollections = some cc) ↔
      r = ({ ciphersCollections := some cc, collections := some x } : JoinRow) := by
    intro r
    simp only [JoinRow.ofLinks, mem_innerJoin, List.mem_map, List.mem_filter, decide_eq_true_eq]
    constructor
    · rintro ⟨⟨r0, ⟨cc', -, rfl⟩, y, hy, hon, rfl⟩, hr⟩
      obtain rfl : cc' = cc := Option.some.inj hr
      have hon : y.uuid = cc'.collectionUuid := by simpa using hon
      rw [Table.eq_of_key hy hx (hon.trans hxk.symm)]
    · rintro rfl
      exact ⟨⟨_, ⟨cc, ⟨hcc, hc⟩, rfl⟩, x, hx, by simp [hxk], rfl⟩, rfl⟩
  unfold Cipher.collectionRows
  split
  · next he =>
    refine ShowsMember.withGroupRights (hrows _ fun r => ?_) he
    simp only [JoinRow.withMember, mem_leftJoin]
    constructor
    · rintro ⟨⟨r0, hr0, o, hop, rfl⟩, hr⟩
      obtain rfl := (hlinks r0).1 ⟨hr0, hr⟩
      rw [(mem_padded_memberOn hm ho rfl).1 hop]
    · rintro rfl
      exact ⟨⟨_, ((hlinks _).2 rfl).1, some m, (mem_padded_memberOn hm ho rfl).2 rfl, rfl⟩, rfl⟩
  · next he =>
    refine ShowsMember.ofMember (hrows _ fun r => ?_) (by simpa using he)
    simp only [mem_innerJoin]
    constructor
    · rintro ⟨⟨r0, hr0, n, hn, hon, rfl⟩, hr⟩
      obtain rfl := (hlinks r0).1 ⟨hr0, hr⟩
      rw [(memberOn_iff hm ho rfl hn).1 hon]
    · rintro rfl
      exact ⟨⟨_, ((hlinks _).2 rfl).1, m, hm.1, (memberOn_iff hm ho rfl hm.1).2 rfl, rfl⟩, rfl⟩

omit hm ho in
theorem collectionRows_link : ∀ r ∈ Cipher.collectionRows cfg db c u,
    ∃ cc ∈ db.ciphersCollections.rows, cc.cipherUuid = c.uuid ∧ r.ciphersCollections = some cc := by
  have hlinks : ∀ r ∈ JoinRow.ofLinks db
      (db.ciphersCollections.rows.filter fun cc => cc.cipherUuid = c.uuid),
      ∃ cc ∈ db.ciphersCollections.rows, cc.cipherUuid = c.uuid ∧ r.ciphersCollections = some cc := by
    intro r hr
    obtain ⟨r0, hr0, y, -, -, rfl⟩ := mem_innerJoin.1 hr
    obtain ⟨cc, hcc, rfl⟩ := List.mem_map.1 hr0
    exact ⟨cc, (List.mem_filter.1 hcc).1, by simpa using (List.mem_filter.1 hcc).2, rfl⟩
  unfold Cipher.collectionRows
  split
  · intro r hr
    obtain ⟨r0, hr0, ⟨gu, hr'⟩, -⟩ := of_mem_withGroupRights hr
    rw [hr']
    obtain ⟨r1, hr1, o, -, rfl⟩ := mem_leftJoin.1 hr0
    obtain ⟨r2, hr2, n, -, rfl⟩ := mem_leftJoin.1 hr1
    exact hlinks r2 hr2
  · intro r hr
    obtain ⟨r1, hr1, o, -, rfl⟩ := mem_leftJoin.1 hr
    obtain ⟨r0, hr0, n, -, -, rfl⟩ := mem_innerJoin.1 hr1
    exact hlinks r0 hr0

omit ho in
/-- A query for the cipher's collections that also shows what the member sees by its `role`. -/
theorem mem_collectionsWhere_iff {role : Prop}
    (hin : ∀ k, Linked db c k → db.CollectionIn k m.orgUuid)
    (hp : ∀ r, r.usersOrganizations = some m → (p r = true ↔ role ∨ Cipher.writableRow u r = true)) :
    k ∈ ((Cipher.collectionRows cfg db c u).filter p).filterMap
        (fun r => r.ciphersCollections.map fun cc => cc.collectionUuid) ↔
      Linked db c k ∧ (role ∨ Granted cfg db u m k) := by
  simp only [List.mem_filterMap, List.mem_filter, Option.map_eq_some_iff]
  constructor
  · rintro ⟨r, ⟨hr, hpr⟩, cc, hrc, rfl⟩
    obtain ⟨cc', hcc, hc, hrc'⟩ := collectionRows_link r hr
    obtain rfl : cc' = cc := Option.some.inj (hrc'.symm.trans hrc)
    have hl : Linked db c cc'.collectionUuid := ⟨cc', hcc, hc, rfl⟩
    have hs : ShowsRights cfg db u m _ _ := collectionRows_showsRights hm hcc hc (hin _ hl)
    refine ⟨hl, ((hp r (hs.member r ⟨hr, hrc⟩)).1 hpr).imp_right fun hw => ?_⟩
    exact hs.granted_iff.1 ⟨r, ⟨hr, hrc⟩, hw⟩
  · rintro ⟨⟨cc, hcc, hc, rfl⟩, hright⟩
    have hs : ShowsRights cfg db u m _ _ :=
      collectionRows_showsRights hm hcc hc (hin _ ⟨cc, hcc, hc, rfl⟩)
    rcases hright with hrole | hg
    · obtain ⟨r, hr⟩ := hs.row
      exact ⟨r, ⟨hr.1, (hp r (hs.member r hr)).2 (.inl hrole)⟩, cc, hr.2, rfl⟩
    · obtain ⟨r, hr, hw⟩ := hs.granted_iff.2 hg
      exact ⟨r, ⟨hr.1, (hp r (hs.member r hr)).2 (.inr hw)⟩, cc, hr.2, rfl⟩

end

/-! ## The walk -/

section

variable {env : Env} {w w' w'' : World} {me : UserId} {posted done rest : List CollectionId}
  {id : CipherId}

/-- From `w` to `w'` the cipher's links to the collections that are `done` were made those that are
posted, and nothing else changed. -/
structure Rewired (id : CipherId) (posted done : List CollectionId) (w w' : World) : Prop where
  same : ∀ t, t ∉ [Part.ciphersCollections] → w.Same w' t
  links : ∀ cc, cc ∈ w'.db.ciphersCollections.rows ↔
    if cc.cipherUuid = id ∧ cc.collectionUuid ∈ done then cc.collectionUuid ∈ posted
    else cc ∈ w.db.ciphersCollections.rows

namespace Rewired

theorem refl : Rewired id posted [] w w := ⟨fun t _ => .refl w t, fun cc => by simp⟩

theorem trans (h : Rewired id posted done w w') (h' : Rewired id posted rest w' w'') :
    Rewired id posted (done ++ rest) w w'' := by
  refine ⟨fun t ht => (h.same t ht).trans (h'.same t ht), fun cc => ?_⟩
  rw [h'.links cc]
  by_cases hid : cc.cipherUuid = id
  · by_cases hrest : cc.collectionUuid ∈ rest
    · simp [hid, hrest]
    · simp [hid, hrest, h.links cc]
  · simp [hid, h.links cc]

theorem linkable_eq (h : Rewired id posted done w w') :
    linkable env w'.db me org k = linkable env w.db me org k := by
  refine linkable_same fun t ht => h.same t fun hmem => ?_
  obtain rfl := List.mem_singleton.1 hmem
  exact absurd ht (by decide)

end Rewired

theorem CollectionCipher.save_yields : Yields w (CollectionCipher.save env id k) fun _ w' =>
    ∀ cc, cc ∈ w'.db.ciphersCollections.rows ↔ cc = ⟨id, k⟩ ∨ cc ∈ w.db.ciphersCollections.rows := by
  refine Yields.still CollectionCipher.updateUsersRevision_writes fun _ w1 hsame => ?_
  refine Yields.exec.mono fun _ w2 hstmt cc => ?_
  obtain ⟨-, hdb⟩ := Db.guarded_eq_some hstmt
  have hrows : w1.db.ciphersCollections = w.db.ciphersCollections := hsame .ciphersCollections
  rw [hdb]
  show cc ∈ (w1.db.ciphersCollections.upsert _).rows ↔ _
  rw [Table.mem_upsert, hrows]
  constructor
  · exact Or.imp_right And.left
  · rintro (rfl | hcc)
    · exact .inl rfl
    · refine or_iff_not_imp_left.2 fun hne => ⟨hcc, fun hkey => hne ?_⟩
      obtain ⟨x, y⟩ := cc
      obtain ⟨rfl, rfl⟩ := Prod.mk.inj hkey
      rfl

theorem CollectionCipher.delete_yields : Yields w (CollectionCipher.delete env id k) fun _ w' =>
    ∀ cc, cc ∈ w'.db.ciphersCollections.rows ↔ cc ∈ w.db.ciphersCollections.rows ∧ cc ≠ ⟨id, k⟩ := by
  refine Yields.still CollectionCipher.updateUsersRevision_writes fun _ w1 hsame => ?_
  refine Yields.exec.mono fun _ w2 hstmt cc => ?_
  have hrows : w1.db.ciphersCollections = w.db.ciphersCollections := hsame .ciphersCollections
  rw [← Option.some.inj hstmt]
  show cc ∈ (w1.db.ciphersCollections.deleteWhere _).rows ↔ _
  rw [Table.mem_deleteWhere, hrows]
  obtain ⟨x, y⟩ := cc
  simp

/-- One turn of the walk makes one link what was posted, if the collection passes the check. -/
theorem changeLink_yields : Yields w (changeLink env id org me posted k) fun _ w' =>
    linkable env w.db me org k = true ∧ Rewired id posted [k] w w' := by
  have hwrites : Writes [.ciphersCollections] (changeLink env id org me posted k) := by
    refine .bind .query fun found => ?_
    split
    · exact .err
    · exact .bind .query fun _ =>
        .ite (.ite CollectionCipher.save_writes CollectionCipher.delete_writes) .err
  suffices h : Yields w (changeLink env id org me posted k) fun _ w' =>
      linkable env w.db me org k = true ∧ ∀ cc, cc ∈ w'.db.ciphersCollections.rows ↔
        if cc = ⟨id, k⟩ then k ∈ posted else cc ∈ w.db.ciphersCollections.rows by
    intro a ha
    obtain ⟨hl, hlinks⟩ := h a ha
    refine ⟨hl, fun t ht => hwrites.after ht w, fun cc => (hlinks cc).trans ?_⟩
    obtain ⟨x, y⟩ := cc
    by_cases hcc : x = id ∧ y = k
    · obtain ⟨rfl, rfl⟩ := hcc
      simp
    · simp [hcc]
  refine .found .err fun x hfound => ?_
  refine .query ?_
  obtain ⟨-, rfl, -⟩ := Collection.findByUuidAndOrg_eq_some hfound
  split
  · next hwr =>
    have hl : linkable env w.db me org x.uuid = true := by simp [linkable, hfound, hwr]
    split
    · next hp =>
      refine CollectionCipher.save_yields.mono fun _ w' h => ⟨hl, fun cc => (h cc).trans ?_⟩
      by_cases hcc : cc = ⟨id, x.uuid⟩ <;> simp_all
    · next hp =>
      refine CollectionCipher.delete_yields.mono fun _ w' h => ⟨hl, fun cc => (h cc).trans ?_⟩
      by_cases hcc : cc = ⟨id, x.uuid⟩ <;> simp_all
  · exact .err

theorem changeLink_returns (hc : w.db.hasCipher id = true)
    (hk : linkable env w.db me org k = true) :
    Returns w (changeLink env id org me posted k) fun _ w' => Rewired id posted [k] w w' := by
  suffices h : Returns w (changeLink env id org me posted k) ⊤ by
    intro hs
    obtain ⟨a, ha, -⟩ := h hs
    exact ⟨a, ha, (changeLink_yields a ha).2⟩
  obtain ⟨x, hfound, hwr⟩ := (Option.any_eq_true _ _).1 hk
  refine .query ?_
  rw [hfound]
  refine .query ?_
  rw [if_pos hwr]
  obtain ⟨hx, -, -⟩ := Collection.findByUuidAndOrg_eq_some hfound
  split
  · have hhas : w.db.hasCollection x.uuid = true := List.any_eq_true.2 ⟨x, hx, decide_eq_true rfl⟩
    exact (CollectionCipher.save_returns hc hhas).mono fun _ _ _ => trivial
  · exact .bind CollectionCipher.updateUsersRevision_returns fun _ _ =>
      Returns.execTotal.mono fun _ _ _ => trivial

theorem changeLink_refuses (hk : linkable env w.db me org k = false) :
    Prog.Refuses w (changeLink env id org me posted k) := by
  refine Refuses.query ?_
  cases hfound : Collection.findByUuidAndOrg w.db k org with
  | none => exact Prog.Refuses.fail
  | some =>
    rw [linkable, hfound, Option.any_some] at hk
    refine Refuses.query ?_
    rw [hk]
    exact Prog.Refuses.fail

theorem changeLinks_yields :
    Yields w (Prog.each walked (changeLink env id org me posted)) fun _ w' =>
      Rewired id posted walked w w' := by
  induction walked generalizing w with
  | nil => exact .ret .refl
  | cons k rest ih =>
    exact .bind changeLink_yields fun _ h => ih.mono fun _ w' h' => h.2.trans h'

/-- An undisturbed walk stops at the first collection that fails its check. -/
theorem changeLinks_concludes (hc : w.db.hasCipher id = true) :
    Concludes w (Prog.each walked (changeLink env id org me posted)) fun r w' =>
      r.toBool = walked.all (linkable env w.db me org) ∧
        Rewired id posted (walked.takeWhile (linkable env w.db me org)) w w' := by
  induction walked generalizing w with
  | nil => exact fun _ => ⟨rfl, .refl⟩
  | cons k rest ih =>
    cases hk : linkable env w.db me org k with
    | true =>
      refine .bind (changeLink_returns hc hk) fun _ h hs => ?_
      have hsame : linkable env ((changeLink env id org me posted k).after w).db me org =
          linkable env w.db me org := funext fun _ => h.linkable_eq
      have hc' : ((changeLink env id org me posted k).after w).db.hasCipher id = true :=
        (h.same .ciphers (by decide)).hasCipher.trans hc
      obtain ⟨hall, hrest⟩ := ih hc' hs
      rw [hsame] at hall hrest
      rw [List.all_cons, List.takeWhile_cons, hk]
      exact ⟨hall, h.trans hrest⟩
    | false =>
      obtain ⟨e, hrun⟩ : Prog.Refuses w (Prog.each (k :: rest) (changeLink env id org me posted)) :=
        Prog.Refuses.bind (changeLink_refuses hk)
      intro _
      unfold Prog.after
      rw [hrun, List.all_cons, List.takeWhile_cons, hk]
      exact ⟨rfl, .refl⟩

end

/-! ## What an assignment leaves -/

section

variable {env : Env} {w : World} {me : UserId} {posted : List CollectionId}
  {current : Config → Db → Cipher → UserId → List CollectionId}

theorem linked_iff : Linked db c k ↔ (⟨c.uuid, k⟩ : CollectionCipher) ∈ db.ciphersCollections.rows := by
  constructor
  · rintro ⟨⟨x, y⟩, hcc, rfl, rfl⟩
    exact hcc
  · intro h
    exact ⟨_, h, rfl, rfl⟩

theorem mem_symmetricDifference {shown} :
    k ∈ symmetricDifference posted shown ↔ k ∈ posted ∧ k ∉ shown ∨ k ∈ shown ∧ k ∉ posted := by
  simp [symmetricDifference]

/-- The links that are shown are replaced by what is posted; the others stay. -/
theorem updateCollections_yields (hc : c ∈ w.db.ciphers.rows)
    (hshown : ∀ k ∈ current env.toConfig w.db c me, Linked w.db c k) :
    Yields w (updateCollections env c.uuid posted me current) fun _ w' => ∀ k,
      Linked w'.db c k ↔ (Linked w.db c k ∧ k ∉ current env.toConfig w.db c me) ∨ k ∈ posted := by
  refine .query ?_
  rw [findByUuid_of_mem hc]
  refine .query (.ensure fun _ => ?_)
  cases c.organizationUuid with
  | none => exact .err
  | some =>
    refine Yields.query (Prog.Yields.bind changeLinks_yields fun _ h => ?_)
    refine Yields.still Cipher.updateUsersRevision_writes fun _ w2 hsame _ _ k => ?_
    have hrows : (c.toJson.after w2).db.ciphersCollections = _ :=
      (hsame .ciphersCollections).trans (Cipher.toJson_writes.still w2 .ciphersCollections)
    have hlinks := h.links ⟨c.uuid, k⟩
    simp only [true_and, (env.walk.perm _).mem_iff, mem_symmetricDifference] at hlinks
    rw [linked_iff, hrows, hlinks, ← linked_iff]
    have hk := hshown k
    by_cases hp : k ∈ posted <;> by_cases hs : k ∈ current env.toConfig w.db c me <;> simp_all

end

/-- **What an assignment leaves.**  A member's assignment replaces the links to the collections that
the member is shown by what is posted. As an administrator the member is shown every collection it
may write to; otherwise those that it has a right on, and not those that its role opens. -/
theorem assignment_links (env : Env) (w : World) (me : UserId) (m : Membership) (c : Cipher)
    (posted : List CollectionId) (hb : OrgBoundary w.db) (hl : LinksKept (fun _ _ => False) w.db)
    (hc : c ∈ w.db.ciphers.rows) (hm : ConfirmedIn w.db me c m) :
    (Yields w (postCollectionsAdmin env c.uuid posted me) fun _ w' => ∀ k, Linked w'.db c k ↔
      (Linked w.db c k ∧ ¬ ∃ x ∈ w.db.collections.rows, x.uuid = k ∧
        x.isWritableByUser env.toConfig w.db me = true) ∨ k ∈ posted) ∧
    (Yields w (postCollectionsUpdate env c.uuid posted me) fun _ w' => ∀ k, Linked w'.db c k ↔
      (Linked w.db c k ∧ ¬ Granted env.toConfig w.db me m k) ∨ k ∈ posted) ∧
    ∀ x ∈ w.db.collections.rows, x.orgUuid = m.orgUuid →
      (x.isWritableByUser env.toConfig w.db me = true ↔
        MembershipType.admin ≤ m.atype ∨ Granted env.toConfig w.db me m x.uuid) := by
  have hin : ∀ k, Linked w.db c k → w.db.CollectionIn k m.orgUuid := by
    rintro k ⟨cc, hcc, hid, rfl⟩
    obtain ⟨o, hk, ⟨x, hx, hxc, hxo⟩ | hf⟩ := hl cc hcc
    · obtain rfl : x = c := Table.eq_of_key hx hc (hxc.trans hid)
      rw [hm.2.1] at hxo
      exact Option.some.inj hxo ▸ hk
    · exact hf.elim
  have hwr : ∀ x ∈ w.db.collections.rows, x.orgUuid = m.orgUuid →
      (x.isWritableByUser env.toConfig w.db me = true ↔
        MembershipType.admin ≤ m.atype ∨ Granted env.toConfig w.db me m x.uuid) :=
    fun x hx ho => isWritableByUser_iff hm.1 ho hb hx
  have hadmin : ∀ k, k ∈ Cipher.getAdminCollections env.toConfig w.db c me ↔ Linked w.db c k ∧
      (MembershipType.admin ≤ m.atype ∨ Granted env.toConfig w.db me m k) := fun k => by
    refine mem_collectionsWhere_iff hm.1 hin fun r hr => ?_
    rw [hr, Bool.or_eq_true, Option.any_some, decide_eq_true_eq, MembershipType.toI32_le_admin]
    exact or_comm
  have hupdate : ∀ k, k ∈ Cipher.getCollections env.toConfig w.db c me ↔ Linked w.db c k ∧
      (False ∨ Granted env.toConfig w.db me m k) := fun k =>
    mem_collectionsWhere_iff hm.1 hin fun r _ => (false_or _).to_iff.symm
  refine ⟨?_, ?_, hwr⟩
  · refine (updateCollections_yields hc fun k hk => ((hadmin k).1 hk).1).mono fun _ w' h k => ?_
    rw [h k, hadmin k]
    refine or_congr_left (and_congr_right fun hlk => not_congr ?_)
    obtain ⟨x, hx, rfl, ho⟩ := hin k hlk
    rw [and_iff_right hlk, ← hwr x hx ho]
    constructor
    · exact fun hw => ⟨x, hx, rfl, hw⟩
    · rintro ⟨y, hy, hyx, hw⟩
      rwa [← Table.eq_of_key hy hx hyx]
  · refine (updateCollections_yields hc fun k hk => ((hupdate k).1 hk).1).mono fun _ w' h k => ?_
    rw [h k, hupdate k, false_or]
    exact or_congr_left (and_congr_right fun hlk => not_congr (and_iff_right hlk))

/-! ## What a refused assignment leaves -/

/-- The request is refused before the walk, or it is answered, or every link that the walk comes to
before the first refused collection is already what was posted. -/
def failsClean (env : Env) (db : Db) (id : CipherId) (posted : List CollectionId) (me : UserId)
    (current : Config → Db → Cipher → UserId → List CollectionId) : Bool :=
  (Cipher.findByUuid db id).all fun c => c.organizationUuid.all fun org =>
    let walked := env.walk.order (symmetricDifference posted (current env.toConfig db c me))
    !c.isInEditableCollectionByUser env.toConfig db me ||
      (walked.all (linkable env db me org) && c.typeKey.toBool) ||
      (walked.takeWhile (linkable env db me org)).all fun k =>
        k ∈ posted ↔ (⟨c.uuid, k⟩ : CollectionCipher) ∈ db.ciphersCollections.rows

theorem Rewired.kept_iff {w w' id posted done} (h : Rewired id posted done w w') :
    (∀ cc, cc ∈ w'.db.ciphersCollections.rows ↔ cc ∈ w.db.ciphersCollections.rows) ↔
      (done.all fun k => k ∈ posted ↔
        (⟨id, k⟩ : CollectionCipher) ∈ w.db.ciphersCollections.rows) = true := by
  simp only [List.all_eq_true, decide_eq_true_eq]
  constructor
  · intro hkept k hk
    rw [← hkept, h.links, if_pos ⟨rfl, hk⟩]
  · rintro hdone ⟨x, y⟩
    rw [h.links]
    split
    · next hcc =>
      obtain ⟨rfl, hy⟩ := hcc
      exact hdone y hy
    · exact Iff.rfl

theorem updateCollections_fails_iff {env w id posted me current} (hw : w.faults = []) :
    (((updateCollections env id posted me current).run w).1.toBool = false →
      ∀ cc, cc ∈ ((updateCollections env id posted me current).after w).db.ciphersCollections.rows ↔
        cc ∈ w.db.ciphersCollections.rows) ↔
    failsClean env w.db id posted me current = true := by
  suffices h : Concludes w (updateCollections env id posted me current) fun r w' =>
      (r.toBool = false → ∀ cc, cc ∈ w'.db.ciphersCollections.rows ↔
        cc ∈ w.db.ciphersCollections.rows) ↔
      failsClean env w.db id posted me current = true from h (updateCollections_writes.undisturbed hw)
  refine .query ?_
  unfold failsClean
  cases hfound : Cipher.findByUuid w.db id with
  | none => exact fun _ => iff_of_true (fun _ _ => Iff.rfl) rfl
  | some c =>
    refine .query (.ensure (fun he => ?_) fun he => ?_)
    · refine iff_of_true (fun _ _ => Iff.rfl) ?_
      cases ho : c.organizationUuid <;> simp [ho, he]
    cases ho : c.organizationUuid with
    | none => exact fun _ => iff_of_true (fun _ _ => Iff.rfl) (by simp [ho])
    | some =>
      have hc := Cipher.findByUuid_eq_some hfound
      refine .query (Prog.Concludes.bind_or (changeLinks_concludes (hasCipher_of_mem hc.1)) ?_ ?_)
      · rintro e ⟨hall, hrewired⟩
        have hall : _ = false := hall.symm
        rw [hrewired.kept_iff]
        simp [ho, he, hall, Except.toBool]
      · rintro _ ⟨hall, hrewired⟩
        have hall : _ = true := hall.symm
        refine Concludes.andThen (S := []) Cipher.updateUsersRevision_writes
          Cipher.updateUsersRevision_returns fun _ w1 _ hsame hs => ?_
        have hrows : (c.toJson.after w1).db.ciphersCollections = _ :=
          (hsame .ciphersCollections List.not_mem_nil).trans
            (Cipher.toJson_writes.still w1 .ciphersCollections)
        rw [Cipher.toJson_concludes hs, hrows, hrewired.kept_iff]
        cases hkey : c.typeKey.toBool <;> simp [ho, he, hall, hkey]

/-- **When a refused assignment leaves the links alone.** -/
theorem failed_assignment_iff (env : Env) (w : World) (hw : w.faults = []) (id : CipherId)
    (posted : List CollectionId) (me : UserId) :
    ((((postCollectionsUpdate env id posted me).run w).1.toBool = false → ∀ cc,
      cc ∈ ((postCollectionsUpdate env id posted me).after w).db.ciphersCollections.rows ↔
        cc ∈ w.db.ciphersCollections.rows) ↔
      failsClean env w.db id posted me Cipher.getCollections = true) ∧
    ((((postCollectionsAdmin env id posted me).run w).1.toBool = false → ∀ cc,
      cc ∈ ((postCollectionsAdmin env id posted me).after w).db.ciphersCollections.rows ↔
        cc ∈ w.db.ciphersCollections.rows) ↔
      failsClean env w.db id posted me Cipher.getAdminCollections = true) :=
  ⟨updateCollections_fails_iff hw, updateCollections_fails_iff hw⟩

/-! ## An owner without full access -/

namespace Assignment

/-- The owner of organization 2, without full access and without assignments. -/
def owner : Membership :=
  { Membership.new 3 ⟨1⟩ ⟨2⟩ none with
    atype := .owner, status := MembershipStatus.confirmed.toI32 }

def item : Cipher := { Cipher.new 6 0 1 "login" with organizationUuid := some ⟨2⟩ }

/-- The item is in the collection 4 of the organization, and not in 5. -/
def stored : Db :=
  { Db.empty with
    users := .ofRows [Entry.user]
    organizations := .ofRows [⟨⟨2⟩, "org", "owner@example.com", none, none⟩]
    usersOrganizations := .ofRows [owner]
    collections := .ofRows [⟨⟨4⟩, ⟨2⟩, "old", none⟩, ⟨⟨5⟩, ⟨2⟩, "new", none⟩]
    ciphers := .ofRows [item]
    ciphersCollections := .ofRows [⟨⟨6⟩, ⟨4⟩⟩] }

def world : World := ⟨stored, 9, [], [], []⟩

theorem stored_linksKept : LinksKept (fun _ _ => False) stored := by
  intro cc hcc
  obtain rfl := List.mem_singleton.1 hcc
  exact ⟨⟨2⟩, ⟨_, List.mem_cons_self, rfl, rfl⟩, .inl ⟨item, List.mem_singleton.2 rfl, rfl, rfl⟩⟩

end Assignment

open Assignment in
/-- The owner moves the item as an administrator. -/
theorem assignment_links_owner :
    ((postCollectionsAdmin {} ⟨6⟩ [⟨5⟩] ⟨1⟩).run world).1 = .ok () ∧
    (∀ k, Linked ((postCollectionsAdmin {} ⟨6⟩ [⟨5⟩] ⟨1⟩).after world).db item k ↔
      (Linked stored item k ∧ ¬ ∃ x ∈ stored.collections.rows, x.uuid = k ∧
        x.isWritableByUser {} stored ⟨1⟩ = true) ∨ k ∈ [⟨5⟩]) := by
  have hb : OrgBoundary stored := ⟨nofun, nofun, nofun⟩
  refine ⟨by rfl, ?_⟩
  exact (assignment_links {} world ⟨1⟩ owner item [⟨5⟩] hb stored_linksKept (List.mem_singleton.2 rfl)
    ⟨⟨List.mem_singleton.2 rfl, rfl⟩, rfl, by decide⟩).1 () (by rfl)

open Assignment in
/-- **An owner without full access keeps a writable collection that was not posted.** -/
theorem owner_keeps_collection :
    (∀ k ∈ stored.collections.rows, k.isWritableByUser {} stored ⟨1⟩ = true) ∧
    ((postCollectionsUpdate {} ⟨6⟩ [⟨5⟩] ⟨1⟩).run world).1.toBool = true ∧
    ((postCollectionsUpdate {} ⟨6⟩ [⟨5⟩] ⟨1⟩).after world).db.ciphersCollections.rows.contains
      ⟨⟨6⟩, ⟨4⟩⟩ = true := by
  decide

open Assignment in
/-- A list with an unknown collection that is come to first. -/
theorem failed_assignment_iff_first :
    ((postCollectionsAdmin {} ⟨6⟩ [⟨8⟩, ⟨5⟩] ⟨1⟩).run world).1.toBool = false ∧ ∀ cc,
      cc ∈ ((postCollectionsAdmin {} ⟨6⟩ [⟨8⟩, ⟨5⟩] ⟨1⟩).after world).db.ciphersCollections.rows ↔
        cc ∈ stored.ciphersCollections.rows :=
  have hfails : ((postCollectionsAdmin {} ⟨6⟩ [⟨8⟩, ⟨5⟩] ⟨1⟩).run world).1.toBool = false := by decide
  ⟨hfails, (failed_assignment_iff {} world rfl ⟨6⟩ [⟨8⟩, ⟨5⟩] ⟨1⟩).2.2 (by decide) hfails⟩

open Assignment in
/-- **An assignment that is refused has added a link.** -/
theorem refused_assignment_links :
    ((postCollectionsAdmin {} ⟨6⟩ [⟨5⟩, ⟨8⟩] ⟨1⟩).run world).1.toBool = false ∧
    stored.ciphersCollections.rows.contains ⟨⟨6⟩, ⟨5⟩⟩ = false ∧
    ((postCollectionsAdmin {} ⟨6⟩ [⟨5⟩, ⟨8⟩] ⟨1⟩).after world).db.ciphersCollections.rows.contains
      ⟨⟨6⟩, ⟨5⟩⟩ = true := by
  decide

end VaultServer
