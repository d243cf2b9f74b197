import NewApi.GroupUpgrades

/-!
# Groups after upgrades have ended

A subscription remembers the group of its own purchase only. If the user buys upgrades one
at a time, that is the group from before all of them, and ending the upgrade brings it back.
The invariant says of the rows what the ending transactions rely on: every upgrade was from
that group, at most one is active, and it ends after those that have expired.
-/
namespace NewApi

def GroupSubscription.Upgrades (userId : ℤ) (r : GroupSubscription) : Prop :=
  r.userId = userId ∧ r.upgradeGroup ≠ ""

/-- The upgrade was from `g`, which the subscription remembers unless it upgrades to `g`. -/
def GroupSubscription.Remembers (g : String) (r : GroupSubscription) : Prop :=
  trimSpace r.upgradeGroup = r.upgradeGroup ∧ ((r.prevUserGroup = "" ∧ r.upgradeGroup = g) ∨
      (r.prevUserGroup = g ∧ trimSpace g = g ∧ g ≠ ""))

/-- Every upgrade of the user was from `g`. One at most is active, and it ends after those that
have expired. -/
structure UpgradeRows (userId : ℤ) (g : String) (w : GroupWorld) : Prop where
  fresh : ∀ r ∈ w.rows, r.id < w.nextId
  keys : (w.rows.map GroupSubscription.id).Nodup
  remembers : ∀ r ∈ w.rows, r.Upgrades userId → r.Remembers g
  single : ∀ r ∈ w.rows, ∀ r' ∈ w.rows, r.Upgrades userId → r'.Upgrades userId →
    r.status = .active → r'.status = .active → r = r'
  expired : ∀ r ∈ w.rows, r.Upgrades userId → r.status = .expired → r.endTime ≤ w.clock
  later : ∀ r ∈ w.rows, ∀ r' ∈ w.rows, r.Upgrades userId → r'.Upgrades userId →
    r.status = .active → r'.status = .expired → r'.endTime ≤ r.endTime ∧ r'.id < r.id

/-- The user is in group `g`, or in the one of the active upgrade. -/
def GroupKept (userId : ℤ) (g : String) (w : GroupWorld) : Prop :=
  w.groups userId = some g ∨ ∃ r ∈ w.rows, r.Upgrades userId ∧ r.status = .active ∧
    w.groups userId = some r.upgradeGroup

section Invariant
variable {userId : ℤ} {g : String} {w w' : GroupWorld}

variable {now owner buyer : ℤ} {rows : List GroupSubscription} {r : GroupSubscription}
  {v : GroupWorld}

variable {rows' : List GroupSubscription}

theorem RowsFrom.active (h : RowsFrom now rows rows')
    (hr : r ∈ rows') (hactive : r.status = .active) : r ∈ rows := by
  obtain ⟨s, hs, -, -, -, -, rfl | hc | ⟨he, -⟩⟩ := h.source r hr
  · exact hs
  · rw [hactive] at hc
    cases hc
  · rw [hactive] at he
    cases he

variable {r' last : GroupSubscription}

theorem eq_of_id (hkeys : (rows.map GroupSubscription.id).Nodup)
    (hr : r ∈ rows) (hr' : r' ∈ rows) (hid : r.id = r'.id) : r = r' :=
  List.inj_on_of_nodup_map hkeys hr hr' hid

theorem UpgradeRows.remembers_from (h : UpgradeRows userId g w)
    (hrows : RowsFrom now w.rows rows') (hr' : r' ∈ rows')
    (hup : r'.Upgrades userId) : r'.Remembers g := by
  obtain ⟨r, hr, -, huser, hgrp, hprev, -⟩ := hrows.source r' hr'
  rw [GroupSubscription.Upgrades, huser, hgrp] at hup
  rw [GroupSubscription.Remembers, hgrp, hprev]
  exact h.remembers r hr hup

theorem setGroup_self {current : String} (h : w.groups userId = some current) (group : String) :
    (w.setGroup userId group).groups userId = some group := by
  change w.groups.modify userId (fun _ => group) userId = some group
  rw [Table.modify_self, h]
  rfl

theorem setGroup_of_ne (h : owner ≠ userId) (group : String) :
    (w.setGroup owner group).groups userId = w.groups userId :=
  Table.modify_of_ne _ _ h.symm

/-- Ending subscriptions keeps what is known about the rows. -/
theorem UpgradeRows.from (h : UpgradeRows userId g w) (hrows : RowsFrom w'.clock w.rows w'.rows)
    (hnext : w'.nextId = w.nextId) (hclk : w.clock ≤ w'.clock) : UpgradeRows userId g w' := by
  have hkeys : (w'.rows.map GroupSubscription.id).Nodup := h.keys.sublist hrows.keys
  refine ⟨?_, hkeys, ?_, ?_, ?_, ?_⟩
  · intro r' hr'
    obtain ⟨r, hr, hid, -⟩ := hrows.source r' hr'
    rw [hid, hnext]
    exact h.fresh r hr
  · intro r' hr' hup
    exact h.remembers_from hrows hr' hup
  · intro r hr r' hr' hup hup' hact hact'
    exact h.single r (hrows.active hr hact) r' (hrows.active hr' hact') hup hup' hact hact'
  · intro r' hr' hup hexp
    obtain ⟨r, hr, -, huser, hgrp, -, hcase⟩ := hrows.source r' hr'
    rcases hcase with rfl | hc | ⟨-, -, hend, hdue⟩
    · exact (h.expired r' hr hup hexp).trans hclk
    · rw [hexp] at hc
      cases hc
    · rw [hend]
      exact hdue
  · intro r hr r' hr' hup hup' hact hexp
    have hold := hrows.active hr hact
    obtain ⟨s, hs, hid, huser, hgrp, -, hcase⟩ := hrows.source r' hr'
    have hups : s.Upgrades userId := by
      rw [GroupSubscription.Upgrades, ← huser, ← hgrp]
      exact hup'
    rcases hcase with rfl | hc | ⟨-, hsact, -, -⟩
    · exact h.later r hold r' hs hup hups hact hexp
    · rw [hexp] at hc
      cases hc
    · -- the row that expired was the active one, so it is not active any more
      have hsame := h.single r hold s hs hup hups hact hsact
      have heq := eq_of_id hkeys hr hr' (by rw [hid, hsame])
      rw [heq, hexp] at hact
      cases hact

section
variable (h : GroupKept userId g w)
include h

theorem GroupKept.keep (hgrp : w'.groups userId = w.groups userId ∨ w'.groups userId = some g)
    (hrows : ∀ r ∈ w.rows, r.Upgrades userId → r.status = .active →
      r ∈ w'.rows ∨ w'.groups userId = some g) : GroupKept userId g w' := by
  rcases hgrp with hsame | hback
  · rcases h with hg | ⟨r, hr, hup, hact, hg⟩
    · exact .inl (hsame.trans hg)
    · rcases hrows r hr hup hact with hin | hback
      · exact .inr ⟨r, hin, hup, hact, hsame.trans hg⟩
      · exact .inl hback
  · exact .inl hback

theorem GroupKept.exists : ∃ current, w.groups userId = some current := by
  rcases h with hg | ⟨r, -, -, -, hg⟩
  · exact ⟨g, hg⟩
  · exact ⟨r.upgradeGroup, hg⟩

/-- Of the group there are two possibilities while one upgrade is active. -/
theorem GroupKept.of_active (hrows : UpgradeRows userId g w)
    (hr : r ∈ w.rows) (hup : r.Upgrades userId) (hact : r.status = .active) :
    w.groups userId = some g ∨ w.groups userId = some r.upgradeGroup := by
  rcases h with hg | ⟨r', hr', hup', hact', hg⟩
  · exact .inl hg
  · rw [hrows.single r' hr' r hr hup' hup hact' hact] at hg
    exact .inr hg

end

theorem trimSpace_empty : trimSpace "" = "" := rfl

theorem GroupSubscription.Remembers.prev (h : r.Remembers g)
    (hne : trimSpace r.prevUserGroup ≠ "") : trimSpace r.prevUserGroup = g := by
  obtain ⟨-, ⟨hprev, -⟩ | ⟨hprev, htrim, -⟩⟩ := h
  · rw [hprev] at hne
    exact absurd trimSpace_empty hne
  · rw [hprev, htrim]

/-- The downgrade for one of the subscriptions moves the user to `g`, if at all; for the active
upgrade it leaves the user there. -/
theorem UpgradeRows.downgraded (h : UpgradeRows userId g w) (hk : GroupKept userId g w)
    {sub : GroupSubscription} (hsub : sub ∈ w.rows) {now' : ℤ} {v' : GroupWorld}
    (hd : Downgraded now sub v v') (hgs : v.groups = w.groups)
    (hrows : RowsFrom now' w.rows v.rows) : v' = { v with groups := v'.groups } ∧
      (v'.groups userId = w.groups userId ∨ v'.groups userId = some g) ∧
      (sub.Upgrades userId → sub.status = .active → v'.groups userId = some g) := by
  obtain ⟨current, hcur⟩ := hk.exists
  rcases hd with ⟨rfl, hwhy⟩ | ⟨rfl, hup, hprev⟩
  · refine ⟨rfl, .inl (by rw [hgs]), ?_⟩
    intro hups hact
    rw [hgs]
    rcases hk.of_active h hsub hups hact with hg | hg
    · exact hg
    obtain ⟨htrim, hrem⟩ := h.remembers sub hsub hups
    obtain ⟨huser, hne⟩ := hups
    rw [hgs, huser, hg, Option.getD_some, htrim] at hwhy
    rcases hwhy with hbl | hoth | ⟨r, hr, hra, hid⟩ | hbl | hsame
    · exact absurd hbl hne
    · exact absurd rfl hoth
    · simp only [GroupSubscription.activeUpgrade, Bool.and_eq_true, decide_eq_true_eq] at hra
      obtain ⟨⟨⟨hru, hract⟩, -⟩, hrne⟩ := hra
      have heq := h.single r (hrows.active hr hract) sub hsub ⟨hru, hrne⟩ ⟨huser, hne⟩ hract hact
      exact absurd (by rw [heq]) hid
    · rcases hrem with ⟨-, heq⟩ | ⟨hp, ht, hgne⟩
      · rw [hg, heq]
      · rw [hp, ht] at hbl
        exact absurd hbl hgne
    · rcases hrem with ⟨-, heq⟩ | ⟨hp, ht, -⟩
      · rw [hg, heq]
      · rw [hp, ht] at hsame
        rw [hg, hsame]
  · by_cases huser : sub.userId = userId
    · have hne : sub.upgradeGroup ≠ "" := by
        intro hno
        rw [hno] at hup
        exact hup trimSpace_empty
      have hback : (v.setGroup sub.userId (trimSpace sub.prevUserGroup)).groups userId =
          some g := by
        rw [(h.remembers sub hsub ⟨huser, hne⟩).prev hprev, huser]
        exact setGroup_self (hgs ▸ hcur) g
      exact ⟨rfl, .inr hback, fun _ _ => hback⟩
    · refine ⟨rfl, .inl ?_, fun hups => absurd hups.1 huser⟩
      rw [setGroup_of_ne huser, hgs]

structure GroupInvariant (userId : ℤ) (g : String) (w : GroupWorld) : Prop where
  rows : UpgradeRows userId g w
  group : GroupKept userId g w

variable {env : Env}

variable {message : String}

theorem GroupInvariant.invalidate (h : GroupInvariant userId g w) {id : ℤ}
    (hok : adminInvalidateUserSubscription env id w = .ok (message, w')) :
    GroupInvariant userId g w' := by
  obtain ⟨sub, hsub, hid, hd⟩ := adminInvalidateUserSubscription_ok hok
  have hrows : RowsFrom w.clock w.rows
      (w.rows.map fun r => if r.id = id then r.cancel env.now else r) := by
    refine RowsFrom.map ?_ ?_
    · intro r
      split_ifs <;> rfl
    · intro r _
      split_ifs
      · exact ⟨rfl, rfl, rfl, .inr (.inl rfl)⟩
      · exact ⟨rfl, rfl, rfl, .inl rfl⟩
  obtain ⟨hw', hgrp, hactive⟩ := h.rows.downgraded h.group hsub hd rfl hrows
  refine ⟨?_, h.group.keep hgrp ?_⟩
  · rw [hw']
    exact h.rows.from hrows rfl le_rfl
  · intro r hr hup hact
    by_cases hr' : r.id = id
    · rw [eq_of_id h.rows.keys hr hsub (hr'.trans hid.symm)] at hup hact
      exact .inr (hactive hup hact)
    · left
      rw [hw']
      exact List.mem_map.mpr ⟨r, hr, if_neg hr'⟩

theorem GroupInvariant.delete (h : GroupInvariant userId g w) {id : ℤ}
    (hok : adminDeleteUserSubscription env id w = .ok (message, w')) :
    GroupInvariant userId g w' := by
  obtain ⟨sub, hsub, hid, v, hd, rfl⟩ := adminDeleteUserSubscription_ok hok
  obtain ⟨hv, hgrp, hactive⟩ :=
    h.rows.downgraded h.group hsub hd rfl (RowsFrom.refl w.clock w.rows)
  have hvrows : v.rows = w.rows := by rw [hv]
  have hclk : v.clock = w.clock := by rw [hv]
  refine ⟨?_, h.group.keep hgrp ?_⟩
  · refine h.rows.from ?_ (by rw [hv]) (le_of_eq hclk.symm)
    rw [hvrows]
    exact RowsFrom.filter _ _ _
  · intro r hr hup hact
    by_cases hr' : r.id = id
    · rw [eq_of_id h.rows.keys hr hsub (hr'.trans hid.symm)] at hup hact
      exact .inr (hactive hup hact)
    · left
      rw [hvrows]
      exact List.mem_filter.mpr ⟨hr, by simpa using hr'⟩

theorem rowsFrom_expiredRows (owner now : ℤ) (rows : List GroupSubscription) :
    RowsFrom now rows (expiredRows owner now rows) := by
  refine RowsFrom.map ?_ ?_
  · intro r
    split_ifs <;> rfl
  · intro r _
    split_ifs with hdue
    · simp only [GroupSubscription.dueAt, Bool.and_eq_true, decide_eq_true_eq] at hdue
      exact ⟨rfl, rfl, rfl, .inr (.inr ⟨rfl, hdue.1.1.2, rfl, hdue.2⟩)⟩
    · exact ⟨rfl, rfl, rfl, .inl rfl⟩

theorem mem_expiredRows (hr : r ∈ rows) (hdue : r.dueAt owner now = false) :
    r ∈ expiredRows owner now rows :=
  List.mem_map.mpr ⟨r, hr, by simp [hdue]⟩

/-- The last to expire, and of these the last to be bought. -/
theorem lastExpired_spec (h : lastExpired userId rows = some last) :
    last ∈ rows ∧ last.Upgrades userId ∧ last.status = .expired ∧
      ∀ r ∈ rows, r.Upgrades userId → r.status = .expired →
        r.endTime < last.endTime ∨ (r.endTime = last.endTime ∧ r.id ≤ last.id) := by
  obtain ⟨hmem, hmax⟩ := latest_spec h
  simp only [List.mem_filter, Bool.and_eq_true, decide_eq_true_eq] at hmem hmax
  obtain ⟨hin, ⟨huser, hst⟩, hne⟩ := hmem
  exact ⟨hin, ⟨huser, hne⟩, hst, fun r hr hup hexp => hmax r ⟨hr, ⟨hup.1, hexp⟩, hup.2⟩⟩

theorem UpgradeRows.lastExpired_eq (h : UpgradeRows userId g w) (hr : r ∈ w.rows)
    (hup : r.Upgrades userId) (hact : r.status = .active) (hdue : r.dueAt userId now = true)
    (hlast : lastExpired userId (expiredRows userId now w.rows) = some last) :
    last = { r with status := .expired } := by
  have hfrom := rowsFrom_expiredRows userId now w.rows
  have hend : { r with status := .expired } ∈ expiredRows userId now w.rows :=
    List.mem_map.mpr ⟨r, hr, if_pos hdue⟩
  obtain ⟨hmem, hlup, hlexp, hmax⟩ := lastExpired_spec hlast
  have hle := hmax _ hend hup rfl
  dsimp only at hle
  obtain ⟨s, hs, hid, huser, hgrp, -, hcase⟩ := hfrom.source last hmem
  have hsup : s.Upgrades userId := by
    rw [GroupSubscription.Upgrades, ← huser, ← hgrp]
    exact hlup
  rcases hcase with rfl | hc | ⟨-, hsact, -, -⟩
  · have hbef := h.later r hr last hs hup hsup hact hlexp
    omega
  · rw [hlexp] at hc
    cases hc
  · have hsame := h.single s hs r hr hsup hup hsact hact
    refine eq_of_id (h.keys.sublist hfrom.keys) hmem hend ?_
    rw [hid, hsame]

/-- After the expiry of the user's subscriptions: if that ended the active upgrade, the user is
in group `g`. -/
theorem GroupInvariant.expiry (h : GroupInvariant userId g w) (hflt : env.fault 5 = false)
    (hd : ExpiryDowngraded env userId { w with rows := expiredRows userId env.now w.rows } w')
    (hr : r ∈ w.rows) (hup : r.Upgrades userId) (hact : r.status = .active)
    (hdue : r.dueAt userId env.now = true) : w'.groups userId = some g := by
  have hfrom := rowsFrom_expiredRows userId env.now w.rows
  have hend : { r with status := .expired } ∈ expiredRows userId env.now w.rows :=
    List.mem_map.mpr ⟨r, hr, if_pos hdue⟩
  have hrem := h.rows.remembers r hr hup
  rcases hd with ⟨rfl, hwhy⟩ | ⟨last, hlast, hne, rfl⟩
  · rcases h.group.of_active h.rows hr hup hact with hg | hg
    · exact hg
    rw [hg, Option.getD_some] at hwhy
    rcases hwhy with ⟨r₂, hr₂, hra⟩ | hf | hnone | ⟨last, hlast, hwhy⟩
    · simp only [GroupSubscription.activeUpgrade, Bool.and_eq_true, decide_eq_true_eq] at hra
      obtain ⟨⟨⟨hru, hract⟩, -⟩, hrne⟩ := hra
      have hsame := h.rows.single r₂ (hfrom.active hr₂ hract) r hr ⟨hru, hrne⟩ hup hract hact
      have heq := eq_of_id (h.rows.keys.sublist hfrom.keys) hr₂ hend (by rw [hsame])
      rw [heq] at hract
      cases hract
    · rw [hflt] at hf
      cases hf
    · have hemp := latest_eq_none hnone
      have hin : { r with status := .expired } ∈ ([] : List GroupSubscription) := by
        rw [← hemp]
        refine List.mem_filter.mpr ⟨hend, ?_⟩
        simp [hup.1, hup.2]
      cases hin
    · rw [h.rows.lastExpired_eq hr hup hact hdue hlast] at hwhy
      obtain ⟨htrim, ⟨hp, heq⟩ | ⟨hp, ht, hgne⟩⟩ := hrem
      · rw [hg, heq]
      rw [htrim, hp, ht] at hwhy
      rcases hwhy with hbl | hbl | hoth | hsame
      · exact absurd hbl hup.2
      · exact absurd hbl hgne
      · exact absurd rfl hoth
      · rw [hg, hsame]
  · obtain ⟨current, hcur⟩ := h.group.exists
    obtain ⟨hmem, hlup, -⟩ := lastExpired_spec hlast
    rw [(h.rows.remembers_from hfrom hmem hlup).prev hne]
    exact setGroup_self hcur g

theorem ExpiryDowngraded.rest (h : ExpiryDowngraded env owner w w') :
    w' = { w with groups := w'.groups } := by
  rcases h with ⟨rfl, -⟩ | ⟨last, -, -, rfl⟩
  · rfl
  · rfl

theorem GroupInvariant.expire (h : GroupInvariant userId g w) (hnow : env.now = w.clock)
    (hflt : owner = userId → env.fault 5 = false) {u : Unit}
    (hok : expireDueSubscriptions env owner w = .ok (u, w')) : GroupInvariant userId g w' := by
  have hd := expireDueSubscriptions_ok hok
  have hfrom := rowsFrom_expiredRows owner env.now w.rows
  obtain ⟨current, hcur⟩ := h.group.exists
  have hrows : w'.rows = expiredRows owner env.now w.rows := by rw [hd.rest]
  have hclk : w'.clock = env.now := by rw [hd.rest, hnow]
  have hgrp : w'.groups userId = w.groups userId ∨ w'.groups userId = some g := by
    rcases hd with ⟨rfl, -⟩ | ⟨last, hlast, hne, rfl⟩
    · exact .inl rfl
    by_cases howner : owner = userId
    · subst howner
      obtain ⟨hmem, hlup, -⟩ := lastExpired_spec hlast
      rw [(h.rows.remembers_from hfrom hmem hlup).prev hne]
      exact .inr (setGroup_self hcur g)
    · exact .inl (setGroup_of_ne howner _)
  refine ⟨?_, h.group.keep hgrp ?_⟩
  · refine h.rows.from ?_ (by rw [hd.rest]) (by omega)
    rw [hrows, hclk]
    exact hfrom
  · intro r hr hup hact
    cases hdue : r.dueAt owner env.now with
    | false =>
      left
      rw [hrows]
      exact mem_expiredRows hr hdue
    | true =>
      have howner : owner = userId := by
        simp only [GroupSubscription.dueAt, Bool.and_eq_true, decide_eq_true_eq] at hdue
        rw [← hdue.1.1.1, hup.1]
      subst howner
      exact .inr (h.expiry (hflt rfl) hd hr hup hact hdue)

theorem UpgradeRows.append_keys (h : UpgradeRows userId g w) (hid : r.id = w.nextId) :
    (∀ r' ∈ w.rows ++ [r], r'.id < w.nextId + 1) ∧
      ((w.rows ++ [r]).map GroupSubscription.id).Nodup := by
  refine ⟨?_, ?_⟩
  · intro r' hr'
    rcases List.mem_append.mp hr' with hin | hnew
    · have := h.fresh r' hin
      omega
    · rw [List.mem_singleton.mp hnew]
      omega
  · rw [List.map_append, List.map_singleton, List.nodup_append]
    refine ⟨h.keys, List.nodup_singleton _, ?_⟩
    intro i hi j hj
    obtain ⟨r', hr', rfl⟩ := List.mem_map.mp hi
    rw [List.mem_singleton.mp hj]
    have := h.fresh r' hr'
    omega

/-- A new row is either no upgrade of the user's group, or the only active one. It ends after
everything that has expired. -/
theorem UpgradeRows.append (h : UpgradeRows userId g w)
    (hid : r.id = w.nextId) (hnew : r.status = .active)
    (hup : r.Upgrades userId → r.Remembers g ∧ w.clock ≤ r.endTime ∧
      ∀ r' ∈ w.rows, r'.Upgrades userId → r'.status ≠ .active)
    (hrows : w'.rows = w.rows ++ [r]) (hnext : w'.nextId = w.nextId + 1)
    (hclk : w'.clock = w.clock) : UpgradeRows userId g w' := by
  have hcas : ∀ r' ∈ w'.rows, r' ∈ w.rows ∨ r' = r := by
    intro r' hr'
    rw [hrows] at hr'
    exact (List.mem_append.mp hr').imp_right List.mem_singleton.mp
  obtain ⟨hfr, hkeys⟩ := h.append_keys hid
  refine ⟨?_, ?_, ?_, ?_, ?_, ?_⟩
  · rw [hrows, hnext]
    exact hfr
  · rw [hrows]
    exact hkeys
  · intro r' hr' hup'
    rcases hcas r' hr' with hin | rfl
    · exact h.remembers r' hin hup'
    · exact (hup hup').1
  · intro r₁ hr₁ r₂ hr₂ hup₁ hup₂ hact₁ hact₂
    rcases hcas r₁ hr₁ with hin₁ | rfl <;> rcases hcas r₂ hr₂ with hin₂ | rfl
    · exact h.single r₁ hin₁ r₂ hin₂ hup₁ hup₂ hact₁ hact₂
    · exact absurd hact₁ ((hup hup₂).2.2 r₁ hin₁ hup₁)
    · exact absurd hact₂ ((hup hup₁).2.2 r₂ hin₂ hup₂)
    · rfl
  · intro r' hr' hup' hexp
    rw [hclk]
    rcases hcas r' hr' with hin | rfl
    · exact h.expired r' hin hup' hexp
    · rw [hnew] at hexp
      cases hexp
  · intro r₁ hr₁ r₂ hr₂ hup₁ hup₂ hact₁ hexp₂
    rcases hcas r₂ hr₂ with hin₂ | rfl
    · rcases hcas r₁ hr₁ with hin₁ | rfl
      · exact h.later r₁ hin₁ r₂ hin₂ hup₁ hup₂ hact₁ hexp₂
      have hend := h.expired r₂ hin₂ hup₂ hexp₂
      have hfst := h.fresh r₂ hin₂
      have hlast := (hup hup₁).2.1
      omega
    · rw [hnew] at hexp₂
      cases hexp₂

theorem not_upgraded (h : w.upgraded userId = false) (hr : r ∈ w.rows) (hup : r.Upgrades userId) :
    r.status ≠ .active := by
  intro hact
  have hany : w.upgraded userId = true := by
    refine List.any_eq_true.mpr ⟨r, hr, ?_⟩
    simp [hup.1, hup.2, hact]
  rw [h] at hany
  cases hany

/-- While no upgrade is active, the user is in group `g`. -/
theorem GroupKept.restored (h : GroupKept userId g w) (hno : w.upgraded userId = false) :
    w.groups userId = some g := by
  rcases h with hg | ⟨r, hr, hup, hact, -⟩
  · exact hg
  · exact absurd hact (not_upgraded hno hr hup)

variable {plan : SubscriptionPlan}

/-- A subscription bought by a user in group `g` remembers it, and the user stays there or moves to
the group of the plan. -/
theorem boughtRow_remembers {prev : String} (hg : w.groups buyer = some g)
    (hne : g ≠ "") (htrim : trimSpace g = g) (hname : trimSpace plan.upgradeGroup ≠ "")
    (hupg : upgradeUserGroupTx env buyer (trimSpace plan.upgradeGroup) w = .ok (prev, v))
    (id endTime : ℤ) : (boughtRow id buyer plan endTime prev).Remembers g ∧
      (v.groups buyer = some g ∨ v.groups buyer = some (trimSpace plan.upgradeGroup)) := by
  have hsame : trimSpace (trimSpace plan.upgradeGroup) = trimSpace plan.upgradeGroup :=
    trimSpace_trimSpace _
  rcases upgradeUserGroupTx_ok hupg with ⟨hprev, hv, hno | hcur⟩ | ⟨-, hprev, hset⟩
  · exact absurd hno hname
  · rw [hg, Option.getD_some] at hcur
    exact ⟨⟨hsame, .inl ⟨hprev, hcur.symm⟩⟩, .inl (by rw [hv, hg])⟩
  · rw [hg, Option.getD_some] at hprev
    exact ⟨⟨hsame, .inr ⟨hprev, htrim, hne⟩⟩, .inr (by rw [hset, setGroup_self hg])⟩

/-- An upgrade changes nothing but the group of the buyer, and that only to a named group. -/
theorem upgradeUserGroupTx_frame {upgradeGroup prev : String}
    (hupg : upgradeUserGroupTx env buyer upgradeGroup w = .ok (prev, v)) (id : ℤ) :
    v.rows = w.rows ∧ v.nextId = w.nextId ∧ v.clock = w.clock ∧
      ((buyer = id → upgradeGroup = "") → v.groups id = w.groups id) := by
  rcases upgradeUserGroupTx_ok hupg with ⟨-, rfl, -⟩ | ⟨hname, -, rfl⟩
  · exact ⟨rfl, rfl, rfl, fun _ => rfl⟩
  · refine ⟨rfl, rfl, rfl, fun hoth => setGroup_of_ne (fun hyes => ?_) _⟩
    exact hname (hoth hyes)

theorem GroupInvariant.purchase (h : GroupInvariant userId g w) (hnow : env.now = w.clock)
    {addDate : ℤ → ℤ → ℤ → ℤ} {u : Unit}
    (halone : buyer = userId → trimSpace plan.upgradeGroup ≠ "" →
      w.upgraded userId = false ∧ plan.endsAfter addDate env.now = true ∧
      (w.groups userId).all (fun g => decide (g ≠ "") && decide (trimSpace g = g)) = true)
    (hok : createUserSubscriptionFromPlanTx addDate env buyer plan w = .ok (u, w')) :
    GroupInvariant userId g w' := by
  obtain ⟨endTime, prev, v, hend, hupg, rfl⟩ := createUserSubscriptionFromPlanTx_ok hok
  obtain ⟨hrows, hnext, hclk, hgs⟩ := upgradeUserGroupTx_frame hupg userId
  obtain ⟨r, hr⟩ : ∃ r, r = boughtRow v.nextId buyer plan endTime prev := ⟨_, rfl⟩
  have hupgr : r.Upgrades userId ↔ buyer = userId ∧ trimSpace plan.upgradeGroup ≠ "" := by
    rw [hr]
    rfl
  rw [← hr]
  by_cases hup : r.Upgrades userId
  · obtain ⟨hbuyer, hname⟩ := hupgr.mp hup
    subst hbuyer
    obtain ⟨hno, hlat, hproper⟩ := halone rfl hname
    have hg := h.group.restored hno
    rw [hg] at hproper
    simp only [Option.all_some, Bool.and_eq_true, decide_eq_true_eq] at hproper
    have hends : env.now < endTime := by
      rw [SubscriptionPlan.endsAfter, hend] at hlat
      exact of_decide_eq_true hlat
    obtain ⟨hreme, hgrp⟩ :=
      boughtRow_remembers hg hproper.1 hproper.2 hname hupg v.nextId endTime
    refine ⟨h.rows.append (r := r) (by rw [hr, ← hnext]; rfl) (by rw [hr]; rfl) ?_
      (by rw [hrows]) (by rw [hnext]) hclk, ?_⟩
    · intro _
      refine ⟨hr ▸ hreme, ?_, fun r' hr' hup' => not_upgraded hno hr' hup'⟩
      rw [hr, ← hnow]
      exact le_of_lt hends
    · rcases hgrp with hsame | hmv
      · exact .inl hsame
      refine .inr ⟨r, List.mem_append_right _ (List.mem_singleton_self r), hup, ?_, ?_⟩
      · rw [hr]
        rfl
      · rw [hr]
        exact hmv
  · refine ⟨h.rows.append (r := r) (by rw [hr, ← hnext]; rfl) (by rw [hr]; rfl)
      (fun hyes => absurd hyes hup) (by rw [hrows]) (by rw [hnext]) hclk, ?_⟩
    refine h.group.keep (.inl (hgs fun hbuyer => ?_)) ?_
    · by_contra hname
      exact hup (hupgr.mpr ⟨hbuyer, hname⟩)
    · intro r' hr' _ _
      left
      rw [hrows]
      exact List.mem_append_left _ hr'

/-- One call, over the four operations. -/
theorem GroupInvariant.step (addDate : ℤ → ℤ → ℤ → ℤ) (c : GroupCall) (w : GroupWorld)
    (hok : UpgradesAlone addDate userId c w) (h : GroupInvariant userId g w) :
    GroupInvariant userId g (c.step addDate w) := by
  have hwait : w.clock ≤ c.now w := by
    unfold GroupCall.now
    omega
  have h₀ : GroupInvariant userId g { w with clock := c.now w } :=
    ⟨h.rows.from (RowsFrom.refl _ _) rfl hwait, h.group⟩
  unfold GroupCall.step
  dsimp only
  rcases (atomic_commit (c.fault commitSite) Err.database
    (c.op.body addDate ⟨c.now w, c.fault⟩)).cases { w with clock := c.now w } with
    ⟨⟨⟩, w', hrun⟩ | ⟨e, hrun⟩
  · rw [hrun]
    obtain ⟨-, hbody⟩ := commit_eq_ok.mp hrun
    cases hop : c.op with
    | purchase buyer plan =>
      rw [hop] at hbody
      rw [UpgradesAlone, hop] at hok
      exact h₀.purchase rfl hok hbody
    | expire owner =>
      rw [hop] at hbody
      rw [UpgradesAlone, hop] at hok
      exact h₀.expire rfl hok hbody
    | invalidate id =>
      rw [hop] at hbody
      simp only [GroupOp.body, Tx.bind_eq_ok, Tx.pure_eq_ok] at hbody
      obtain ⟨message, v, hinv, -, rfl⟩ := hbody
      exact h₀.invalidate hinv
    | delete id =>
      rw [hop] at hbody
      simp only [GroupOp.body, Tx.bind_eq_ok, Tx.pure_eq_ok] at hbody
      obtain ⟨message, v, hdel, -, rfl⟩ := hbody
      exact h₀.delete hdel
  · rw [hrun]
    exact h₀

end Invariant

/-- In every run in which the user buys one upgrade at a time, the user has the group from
before the first purchase whenever no upgrade is active. -/
theorem group_restored_after_upgrades (addDate : ℤ → ℤ → ℤ → ℤ) {userId : ℤ} {g : String}
    {w : GroupWorld} (hgroup : w.groups userId = some g)
    (hnone : ∀ r ∈ w.rows, r.userId = userId → r.upgradeGroup = "")
    (hfresh : ∀ r ∈ w.rows, r.id < w.nextId) (hkeys : (w.rows.map GroupSubscription.id).Nodup)
    (calls : List GroupCall)
    (halone : Along (GroupCall.step addDate) (UpgradesAlone addDate userId) calls w)
    (hended : (run (GroupCall.step addDate) calls w).upgraded userId = false) :
    (run (GroupCall.step addDate) calls w).groups userId = some g := by
  have hno : ∀ r ∈ w.rows, ¬ r.Upgrades userId :=
    fun r hr hup => hup.2 (hnone r hr hup.1)
  have hst : GroupInvariant userId g w := by
    refine ⟨⟨hfresh, hkeys, ?_, ?_, ?_, ?_⟩, .inl hgroup⟩
    · exact fun r hr hup => absurd hup (hno r hr)
    · exact fun r hr _ _ hup => absurd hup (hno r hr)
    · exact fun r hr hup => absurd hup (hno r hr)
    · exact fun r hr _ _ hup => absurd hup (hno r hr)
  have hend := run_invariant (fun c w => GroupInvariant.step addDate c w) halone hst
  exact hend.group.restored hended

def vipPlan : SubscriptionPlan where
  id := 1
  durationUnit := .day
  durationValue := 30
  customSeconds := 0
  maxPurchasePerUser := 0
  upgradeGroup := "vip"

def defaultGroupWorld : GroupWorld where
  groups := Table.empty.put 1 "default"
  rows := []
  nextId := 1
  clock := 0

def calmCall (wait : ℕ) (op : GroupOp) : GroupCall := ⟨wait, fun _ => false, op⟩

/-- The plan is bought, expires, is bought again and invalidated. -/
def upgradeTwice : List GroupCall :=
  [calmCall 1 (.purchase 1 vipPlan), calmCall 2592000 (.expire 1),
    calmCall 1 (.purchase 1 vipPlan), calmCall 1 (.invalidate 2)]

theorem group_restored_after_upgrades_sample :
    (run (GroupCall.step fun _ _ t => t) upgradeTwice defaultGroupWorld).groups 1 =
      some "default" :=
  group_restored_after_upgrades (w := defaultGroupWorld) _ rfl (fun _ h => by cases h)
    (fun _ h => by cases h) List.nodup_nil upgradeTwice (by decide +kernel) (by decide +kernel)

/-- Two overlapping purchases of the same plan: the second one remembers no group, and both
have expired when the user is still in the group vip. -/
theorem overlapping_upgrades_leave_group : (run (GroupCall.step fun _ _ t => t)
        [calmCall 1 (.purchase 1 vipPlan), calmCall 1 (.purchase 1 vipPlan),
          calmCall 2592000 (.expire 1)] defaultGroupWorld).upgraded 1 = false ∧
      (run (GroupCall.step fun _ _ t => t)
        [calmCall 1 (.purchase 1 vipPlan), calmCall 1 (.purchase 1 vipPlan),
          calmCall 2592000 (.expire 1)] defaultGroupWorld).groups 1 = some "vip" := by
  decide +kernel

end NewApi
