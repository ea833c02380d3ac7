import JbOrchestrator.Skills.Materialization

/-!
# Cache safety — what the calls do to the cache entry they share

A staging directory belongs to the call that made it, so what a call has verified there is what it moves.
A rename replaces no directory that holds files.
-/

open Lib

namespace JbOrchestrator.Skills

/-! ## 1. Digests and renames of places -/

theorem computeDirectoryDigest_ok {sha256 : Bytes → String} {path digest : String}
    {place : Option Place} (h : computeDirectoryDigest sha256 path place = .ok digest) :
    ∃ tree, place.bind Place.tree? = some tree ∧ ∃ root, tree.digest sha256 root = .ok digest := by
  unfold computeDirectoryDigest at h
  cases place with
  | none => cases h
  | some place =>
    cases place with
    | file => cases h
    | directory tree => exact ⟨tree, rfl, path, h⟩
    | link resolved =>
      cases resolved with
      | none => cases h
      | some resolved =>
        obtain ⟨root, tree⟩ := resolved
        cases tree with
        | none => cases h
        | some tree => exact ⟨tree, rfl, root, h⟩

/-- What may become of the cache entry: a directory that holds something stays, and a file or a link
gives way to a link only. -/
structure EntryKept (before after : Option Place) : Prop where
  directory : ∀ tree, before = some (.directory tree) → tree.entries ≠ [] → after = before
  other : ∀ place, before = some place → (∀ tree, place ≠ .directory tree) →
    after = before ∨ ∃ resolved, after = some (.link resolved)

theorem EntryKept.refl (entry : Option Place) : EntryKept entry entry :=
  ⟨fun _ _ _ => rfl, fun _ _ _ => .inl rfl⟩

/-- A place with a directory behind it is a directory or a link. -/
theorem rename_kept {source place : Place} {target : Option Place} {tree : Tree}
    (htree : source.tree? = some tree) (h : source.rename target = .ok place) :
    EntryKept target (some place) := by
  cases target with
  | none => exact ⟨nofun, nofun⟩
  | some target =>
    cases source with
    | file => cases htree
    | directory source =>
      cases target with
      | file => cases h
      | link resolved => cases h
      | directory there =>
        refine ⟨fun tree htarget hne => ?_, fun place htarget hplace => ?_⟩
        · obtain rfl := Place.directory.inj (Option.some.inj htarget)
          simp only [Place.rename] at h
          rw [if_neg (by simpa using hne)] at h
          cases h
        · exact absurd (Option.some.inj htarget).symm (hplace there)
    | link resolved =>
      cases target with
      | directory there => cases h
      | file =>
        obtain rfl := Except.ok.inj h
        exact ⟨nofun, fun _ _ _ => .inr ⟨resolved, rfl⟩⟩
      | link there =>
        obtain rfl := Except.ok.inj h
        exact ⟨nofun, fun _ _ _ => .inr ⟨resolved, rfl⟩⟩

/-! ## 2. What the calls of a slot leave to the others -/

/-- The history of the slot and its staging directories are as they were. -/
structure Untouched (slot : ℕ) (s s' : Cache) : Prop where
  verified : s'.verified slot = s.verified slot
  staging : ∀ temporary staging, s.staging temporary = some staging → staging.owner = some slot →
    s'.staging temporary = some staging

structure CacheStep (slot : ℕ) (s s' : Cache) : Prop where
  others : ∀ other, other ≠ slot → Untouched other s s'
  entry : EntryKept s.target s'.target

theorem Untouched.refl (slot : ℕ) (s : Cache) : Untouched slot s s := ⟨rfl, fun _ _ h _ => h⟩

theorem Untouched.trans {slot : ℕ} {s s' s'' : Cache} (h : Untouched slot s s')
    (h' : Untouched slot s' s'') : Untouched slot s s'' where
  verified := h'.verified.trans h.verified
  staging temporary staging hstaging howner :=
    h'.staging temporary staging (h.staging temporary staging hstaging howner) howner

/-- The slot has made the staging directory. -/
def Owned (slot : ℕ) (temporary : String) (s : Cache) : Prop :=
  ∃ payload, s.staging temporary = some ⟨some slot, payload⟩

section

variable {slot : ℕ} {temporary : String} {s s' : Cache}

theorem Owned.stable (h : Owned slot temporary s) (hrely : Untouched slot s s') :
    Owned slot temporary s' := by
  obtain ⟨payload, hpayload⟩ := h
  exact ⟨payload, hrely.staging _ _ hpayload rfl⟩

/-- A change at one name of a staging directory that is free or the slot's own. -/
theorem CacheStep.of_own (temporary : String)
    (hown : ∀ staging, s.staging temporary = some staging → staging.owner = some slot)
    (hverified : s'.verified = s.verified)
    (hstaging : ∀ name, name ≠ temporary → s'.staging name = s.staging name)
    (hentry : EntryKept s.target s'.target) : CacheStep slot s s' where
  entry := hentry
  others other hother := by
    refine ⟨by rw [hverified], ?_⟩
    intro name staging hname howner
    have hne : name ≠ temporary := by
      rintro rfl
      exact hother (Option.some.inj (howner.symm.trans (hown staging hname)))
    rw [hstaging name hne, hname]

theorem CacheStep.refl (slot : ℕ) (s : Cache) : CacheStep slot s s :=
  ⟨fun other _ => Untouched.refl other s, EntryKept.refl _⟩

theorem Owned.owner (h : Owned slot temporary s) :
    ∀ staging, s.staging temporary = some staging → staging.owner = some slot := by
  obtain ⟨payload, hpayload⟩ := h
  intro staging hstaging
  rw [hpayload] at hstaging
  obtain rfl := Option.some.inj hstaging
  rfl

theorem setPayload_of_ne {name : String} (payload : Option Place) (h : name ≠ temporary) :
    (s.setPayload temporary payload).staging name = s.staging name := by
  simp [Cache.setPayload, h]

theorem Owned.setPayload (h : Owned slot temporary s) (payload : Option Place) :
    (s.setPayload temporary payload).staging temporary = some ⟨some slot, payload⟩ := by
  obtain ⟨old, hold⟩ := h
  simp [Cache.setPayload, hold]

theorem step_setPayload (h : Owned slot temporary s) (payload : Option Place) :
    CacheStep slot s (s.setPayload temporary payload) :=
  CacheStep.of_own temporary h.owner rfl (fun _ hne => setPayload_of_ne payload hne) (EntryKept.refl _)

theorem record_staging (root : Root) : (s.record slot root).staging = s.staging := by
  unfold Cache.record
  split <;> rfl

theorem record_target (root : Root) : (s.record slot root).target = s.target := by
  unfold Cache.record
  split <;> rfl

theorem record_verified {root : Root} {tree : Tree}
    (h : (s.place root).bind Place.tree? = some tree) :
    (s.record slot root).verified slot = (root, tree) :: s.verified slot := by
  simp [Cache.record, h]

theorem suffix_record (root : Root) : s.verified slot <:+ (s.record slot root).verified slot := by
  unfold Cache.record
  split
  · exact List.suffix_rfl
  · rename_i tree _
    show s.verified slot <:+ Function.update s.verified slot ((root, tree) :: s.verified slot) slot
    rw [Function.update_self]
    exact List.suffix_cons _ _

theorem step_record (root : Root) : CacheStep slot s (s.record slot root) where
  entry := by
    rw [record_target]
    exact EntryKept.refl _
  others other hother := by
    refine ⟨?_, ?_⟩
    · unfold Cache.record
      split
      · rfl
      · exact Function.update_of_ne hother _ _
    · intro temporary staging hstaging _
      rw [record_staging, hstaging]

theorem step_rmtree (h : Owned slot temporary s) (left : Option (Option Place)) :
    CacheStep slot s (s.rmtree temporary left) := by
  cases left with
  | some payload => exact step_setPayload h payload
  | none =>
    refine CacheStep.of_own temporary h.owner rfl ?_ (EntryKept.refl _)
    intro name hne
    exact Function.update_of_ne hne _ _

/-- `mkdtemp` makes a directory of a name that was free, or fails. -/
theorem mkdtemp_spec (slot : ℕ) (candidates : List String) (s : Cache) :
    (∃ error, s.mkdtemp slot candidates = (.error error, s)) ∨
      ∃ temporary s', s.mkdtemp slot candidates = (.ok temporary, s') ∧ CacheStep slot s s' ∧
        s'.verified = s.verified ∧ Owned slot temporary s' := by
  unfold Cache.mkdtemp
  split
  · exact .inl ⟨_, rfl⟩
  · rename_i temporary hfind
    right
    have hfree : s.staging temporary = none := by simpa using List.find?_some hfind
    refine ⟨temporary, _, rfl, CacheStep.of_own temporary ?_ rfl ?_ (EntryKept.refl _), rfl, none, ?_⟩
    · intro staging hstaging
      rw [hfree] at hstaging
      cases hstaging
    · intro name hne
      exact Function.update_of_ne hne _ _
    · exact Function.update_self temporary _ _

/-- The rename of a payload with a directory behind it. -/
theorem rename_spec {payload : Place} {tree : Tree}
    (h : s.staging temporary = some ⟨some slot, some payload⟩) (htree : payload.tree? = some tree) :
    CacheStep slot s (s.rename temporary).2 ∧ (s.rename temporary).2.verified = s.verified ∧
      Owned slot temporary (s.rename temporary).2 := by
  have howned : Owned slot temporary s := ⟨some payload, h⟩
  have hplace : s.place (.payload temporary) = some payload := by simp [Cache.place, h]
  unfold Cache.rename
  simp only [hplace]
  cases hrename : payload.rename s.target with
  | error error => exact ⟨CacheStep.refl slot s, rfl, howned⟩
  | ok place =>
    refine ⟨CacheStep.of_own temporary howned.owner rfl (fun _ hne => setPayload_of_ne none hne)
      (rename_kept htree hrename), rfl, none, howned.setPayload none⟩

end

/-! ## 3. The calls among each other -/

section

variable (sha256 : Bytes → String) (contentDigest : String)

/-- What the slot took a digest of last, and in this call, is `tree` at `root`, with the digest of the
definition. -/
def LastVerified (slot : ℕ) (began s : Cache) (root : Root) (tree : Tree) : Prop :=
  (∃ earlier, s.verified slot = (root, tree) :: earlier ∧ began.verified slot <:+ earlier) ∧
    ∃ path, tree.digest sha256 path = .ok contentDigest

/-- The payload is what the call has verified. -/
def MovesVerified (slot : ℕ) (skill : SkillDefinition) (began s : Cache) (temporary : String) : Prop :=
  ∃ payload tree, s.staging temporary = some ⟨some slot, some payload⟩ ∧ payload.tree? = some tree ∧
    LastVerified sha256 contentDigest slot began s (.payload temporary) tree ∧
      tree.isFile (pathNames skill.entrypoint) = true

def CacheIssue (slot : ℕ) (skill : SkillDefinition) (began s : Cache) (statement : CacheStatement) :
    Prop :=
  ∀ temporary, statement = .rename temporary →
    MovesVerified sha256 contentDigest slot skill began s temporary

def CacheReturns (materializer : SkillMaterializer) (slot : ℕ) (began s : Cache)
    (result : Except MaterializationError MaterializedSkill) : Prop :=
  ∀ value, result = .ok value → value.rootPath = materializer.path contentDigest .target ∧
    ∃ tree, LastVerified sha256 contentDigest slot began s .target tree

variable (materializer : SkillMaterializer)

/-- What is left to show of a part of a call that ends with `P`, or raises and leaves `E`. -/
abbrev Materializes {α : Type} (slot : ℕ) (skill : SkillDefinition) (began : Cache)
    (E : Cache → Prop) (P : α → Cache → Prop) (p : Materializing α) (s : Cache) : Prop :=
  (materializing sha256 materializer contentDigest).Safe (fun _ _ => True) (fun _ => True)
    (Untouched slot) (CacheStep slot) (CacheIssue sha256 contentDigest slot skill began)
    (fun _ s => E s) P p s

variable {sha256 contentDigest materializer} {slot : ℕ} {skill : SkillDefinition}
  {began s s' : Cache} {temporary : String}

theorem LastVerified.stable {root : Root} {tree : Tree}
    (h : LastVerified sha256 contentDigest slot began s root tree)
    (hverified : s'.verified slot = s.verified slot) :
    LastVerified sha256 contentDigest slot began s' root tree := by
  obtain ⟨⟨earlier, hlast, hbegan⟩, hdigest⟩ := h
  exact ⟨⟨earlier, hverified.trans hlast, hbegan⟩, hdigest⟩

/-- What a precondition of a part of a call may say: nothing that the other slots change, or the record
of a digest. -/
structure Stable (slot : ℕ) (began : Cache) (K : Cache → Prop) : Prop where
  rely : ∀ s s', Untouched slot s s' → K s → K s'
  record : ∀ s root, K s → K (s.record slot root)
  since : ∀ s, K s → began.verified slot <:+ s.verified slot

theorem checkDigest_ok {reply : Except MaterializationError String} {actual : String}
    (h : reply >>= SkillMaterializer.checkDigest skill = .ok actual) :
    reply = .ok actual ∧ actual = skill.contentDigest := by
  obtain ⟨digest, hreply, hcheck⟩ := bind_ok h
  unfold SkillMaterializer.checkDigest at hcheck
  split at hcheck
  · rename_i hdigest
    obtain rfl := Except.ok.inj hcheck
    exact ⟨hreply, hdigest⟩
  · cases hcheck

theorem checkEntrypoint_ok {isFile : Bool}
    (h : SkillMaterializer.checkEntrypoint skill isFile = .ok ()) : isFile = true := by
  unfold SkillMaterializer.checkEntrypoint at h
  split at h
  · assumption
  · cases h

theorem materializes_verify {root : Root} {K E : Cache → Prop}
    {P : MaterializedSkill → Cache → Prop} (hskill : skill.contentDigest = contentDigest)
    (hK : Stable slot began K) (hE : ∀ s, K s → E s)
    (hP : ∀ value s₀ s₁ tree, K s₀ → (s₀.place root).bind Place.tree? = some tree → K s₁ →
      (((s₁.place root).bind Place.tree?).any fun tree =>
        tree.isFile (pathNames skill.entrypoint)) = true →
      LastVerified sha256 contentDigest slot began s₁ root tree →
      value.rootPath = materializer.path contentDigest root → P value s₁)
    (hs : K s) :
    Materializes sha256 contentDigest materializer slot skill began E P
      (materializer.verify contentDigest slot skill root) s := by
  unfold SkillMaterializer.verify
  -- the digest is taken of what is there now, and recorded
  refine Coroutines.safe_bind _ (P := fun reply s' => K s' ∧ ∀ actual, reply = .ok actual →
    ∃ s₀ tree, K s₀ ∧ (s₀.place root).bind Place.tree? = some tree ∧
      (∃ path, tree.digest sha256 path = .ok actual) ∧
        s'.verified slot = (root, tree) :: s₀.verified slot) ?_ ?_
  · intro s₀ _ hrely
    have hs₀ := hK.rely s s₀ hrely hs
    refine ⟨nofun, fun fault _ => ⟨step_record root, hK.record s₀ root hs₀, ?_⟩⟩
    intro actual hreply
    cases fault with
    | some error => cases hreply
    | none =>
      obtain ⟨tree, htree, hdigest⟩ := computeDirectoryDigest_ok hreply
      exact ⟨s₀, tree, hs₀, htree, hdigest, record_verified htree⟩
  rintro reply s' ⟨hs', hreply⟩
  refine Coroutines.safe_bind _ (P := fun actual s'' => s'' = s' ∧
    reply = .ok actual ∧ actual = skill.contentDigest) ?_ ?_
  · apply Coroutines.safe_ofExcept
    · intro actual hactual
      exact ⟨rfl, checkDigest_ok hactual⟩
    · exact fun error _ => hE s' hs'
  rintro actual s'' ⟨rfl, hok, hactual⟩
  obtain ⟨s₀, tree, hs₀, htree, hdigest, hverified⟩ := hreply actual hok
  have hlast : LastVerified sha256 contentDigest slot began s'' root tree := by
    rw [hactual, hskill] at hdigest
    exact ⟨⟨_, hverified, hK.since s₀ hs₀⟩, hdigest⟩
  refine Coroutines.safe_bind _ (P := fun isFile s₁ => K s₁ ∧
    LastVerified sha256 contentDigest slot began s₁ root tree ∧
      isFile = ((s₁.place root).bind Place.tree?).any fun tree =>
        tree.isFile (pathNames skill.entrypoint)) ?_ ?_
  · intro s₁ _ hrely
    refine ⟨nofun, fun _ _ => ⟨CacheStep.refl slot s₁, hK.rely s'' s₁ hrely hs', ?_, rfl⟩⟩
    exact hlast.stable hrely.verified
  rintro isFile s₁ ⟨hs₁, hlast, hisFile⟩
  refine Coroutines.safe_bind _ (P := fun _ s => s = s₁ ∧ isFile = true) ?_ ?_
  · apply Coroutines.safe_ofExcept
    · exact fun _ hcheck => ⟨rfl, checkEntrypoint_ok hcheck⟩
    · exact fun error _ => hE s₁ hs₁
  rintro _ s ⟨rfl, htrue⟩
  exact hP _ s₀ s tree hs₀ htree hs₁ (hisFile.symm.trans htrue) hlast rfl

/-- The staging directory is the call's, with this payload. -/
def Holds (slot : ℕ) (began : Cache) (temporary : String) (payload : Option Place) (s : Cache) :
    Prop :=
  s.staging temporary = some ⟨some slot, payload⟩ ∧ began.verified slot <:+ s.verified slot

/-- The staging directory is the call's. -/
def Holding (slot : ℕ) (began : Cache) (temporary : String) (s : Cache) : Prop :=
  ∃ payload, Holds slot began temporary payload s

theorem Holding.owned (h : Holding slot began temporary s) : Owned slot temporary s := by
  obtain ⟨payload, hpayload, -⟩ := h
  exact ⟨payload, hpayload⟩

theorem stable_holds (temporary : String) (payload : Option Place) :
    Stable slot began (Holds slot began temporary payload) where
  rely _ _ hrely h := ⟨hrely.staging _ _ h.1 rfl, hrely.verified ▸ h.2⟩
  record _ root h :=
    ⟨(congrFun (record_staging root) temporary).trans h.1, h.2.trans (suffix_record root)⟩
  since _ h := h.2

theorem stable_holding (temporary : String) : Stable slot began (Holding slot began temporary) where
  rely s s' hrely := fun ⟨payload, h⟩ => ⟨payload, (stable_holds temporary payload).rely s s' hrely h⟩
  record s root := fun ⟨payload, h⟩ => ⟨payload, (stable_holds temporary payload).record s root h⟩
  since _ := fun ⟨_, h⟩ => h.2

theorem MovesVerified.stable (h : MovesVerified sha256 contentDigest slot skill began s temporary)
    (hrely : Untouched slot s s') :
    MovesVerified sha256 contentDigest slot skill began s' temporary := by
  obtain ⟨payload, tree, hstaging, htree, hlast, hfile⟩ := h
  exact ⟨payload, tree, hrely.staging _ _ hstaging rfl, htree, hlast.stable hrely.verified, hfile⟩

theorem LastVerified.since {root : Root} {tree : Tree}
    (h : LastVerified sha256 contentDigest slot began s root tree) :
    began.verified slot <:+ s.verified slot := by
  obtain ⟨⟨earlier, hlast, hbegan⟩, -⟩ := h
  rw [hlast]
  exact hbegan.trans (List.suffix_cons _ _)

theorem MovesVerified.holding (h : MovesVerified sha256 contentDigest slot skill began s temporary) :
    Holding slot began temporary s := by
  obtain ⟨payload, tree, hstaging, -, hlast, -⟩ := h
  exact ⟨some payload, hstaging, hlast.since⟩

/-- What a call has verified at the cache entry, at its end. -/
def Published (sha256 : Bytes → String) (contentDigest : String) (materializer : SkillMaterializer)
    (slot : ℕ) (began : Cache) (value : MaterializedSkill) (s : Cache) : Prop :=
  value.rootPath = materializer.path contentDigest .target ∧
    ∃ tree, LastVerified sha256 contentDigest slot began s .target tree

theorem Published.stable {value : MaterializedSkill}
    (h : Published sha256 contentDigest materializer slot began value s)
    (hverified : s'.verified slot = s.verified slot) :
    Published sha256 contentDigest materializer slot began value s' := by
  obtain ⟨hpath, tree, hlast⟩ := h
  exact ⟨hpath, tree, hlast.stable hverified⟩

/-- The cache entry is verified under any precondition. -/
theorem materializes_target {K E : Cache → Prop} (hskill : skill.contentDigest = contentDigest)
    (hK : Stable slot began K) (hE : ∀ s, K s → E s) (hs : K s) :
    Materializes sha256 contentDigest materializer slot skill began E
      (fun value s => K s ∧ Published sha256 contentDigest materializer slot began value s)
      (materializer.verify contentDigest slot skill .target) s := by
  apply materializes_verify hskill hK hE _ hs
  intro value s₀ s₁ tree _ _ hs₁ _ hlast hpath
  exact ⟨hs₁, hpath, tree, hlast⟩

/-- What is fetched stays as it is until it is verified. -/
theorem materializes_payload {payload : Option Place} (hskill : skill.contentDigest = contentDigest)
    (hs : Holds slot began temporary payload s) :
    Materializes sha256 contentDigest materializer slot skill began (Holding slot began temporary)
      (fun _ s => MovesVerified sha256 contentDigest slot skill began s temporary)
      (materializer.verify contentDigest slot skill (.payload temporary)) s := by
  apply materializes_verify hskill (stable_holds temporary payload) (fun s h => ⟨payload, h⟩) _ hs
  intro value s₀ s₁ tree hs₀ htree hs₁ hfile hlast _
  have hplace : ∀ s, Holds slot began temporary payload s → s.place (.payload temporary) = payload := by
    intro s h
    simp [Cache.place, h.1]
  rw [hplace s₀ hs₀] at htree
  rw [hplace s₁ hs₁, htree] at hfile
  obtain ⟨place, hpayload, hplaceTree⟩ := Option.bind_eq_some_iff.mp htree
  exact ⟨place, tree, hpayload ▸ hs₁.1, hplaceTree, hlast, by simpa using hfile⟩

theorem materializes_publish (hs : MovesVerified sha256 contentDigest slot skill began s temporary) :
    Materializes sha256 contentDigest materializer slot skill began (Holding slot began temporary)
      (fun _ s => Holding slot began temporary s) (SkillMaterializer.publish temporary) s := by
  unfold SkillMaterializer.publish
  have hstable : Stable slot began (Holding slot began temporary) := stable_holding temporary
  refine Coroutines.safe_bind _ (P := fun _ s => Holding slot began temporary s) ?_ ?_
  · intro s₀ _ hrely
    have hs₀ := hs.stable hrely
    refine ⟨?_, fun fault _ => ?_⟩
    · intro other hother
      obtain rfl := CacheStatement.rename.inj hother
      exact hs₀
    · cases fault with
      | some error => exact ⟨CacheStep.refl slot s₀, hs₀.holding⟩
      | none =>
        obtain ⟨payload, tree, hstaging, htree, hlast, -⟩ := hs₀
        obtain ⟨hstep, hverified, payload', hpayload'⟩ := rename_spec hstaging htree
        have hsince : began.verified slot <:+ (s₀.rename temporary).2.verified slot := by
          rw [hverified]
          exact hlast.since
        exact ⟨hstep, payload', hpayload', hsince⟩
  intro renamed s₀ hs₀
  cases renamed with
  | ok _ => exact hs₀
  | error error =>
    refine Coroutines.safe_bind _ (P := fun _ s => Holding slot began temporary s) ?_ ?_
    · intro s₁ _ hrely
      exact ⟨nofun, fun _ _ => ⟨CacheStep.refl slot s₁, hstable.rely s₀ s₁ hrely hs₀⟩⟩
    · intro there s₁ hs₁
      exact Coroutines.safe_ofExcept _ (fun _ _ => hs₁) fun _ _ => hs₁

theorem materializes_stage (hskill : skill.contentDigest = contentDigest)
    (hs : Holding slot began temporary s) :
    Materializes sha256 contentDigest materializer slot skill began (Holding slot began temporary)
      (fun value s => Holding slot began temporary s ∧
        Published sha256 contentDigest materializer slot began value s)
      (materializer.stage contentDigest slot skill temporary) s := by
  unfold SkillMaterializer.stage
  have hstable : Stable slot began (Holding slot began temporary) := stable_holding temporary
  refine Coroutines.safe_bind _ (P := fun _ s => Holding slot began temporary s) ?_ ?_
  · exact Coroutines.safe_ofExcept _ (fun _ _ => hs) fun _ _ => hs
  intro _ s₀ hs₀
  refine Coroutines.safe_bind _ (P := fun _ s => Holding slot began temporary s) ?_ ?_
  · intro s₁ _ hrely
    have hs₁ := hstable.rely s₀ s₁ hrely hs₀
    refine ⟨nofun, fun fetched _ => ⟨step_setPayload hs₁.owned fetched.payload, ?_⟩⟩
    exact ⟨fetched.payload, hs₁.owned.setPayload fetched.payload, hstable.since s₁ hs₁⟩
  intro fetched s₁ hs₁
  refine Coroutines.safe_bind _ (P := fun _ s => Holding slot began temporary s) ?_ ?_
  · exact Coroutines.safe_ofExcept _ (fun _ _ => hs₁) fun _ _ => hs₁
  rintro _ s₂ ⟨payload, hs₂⟩
  refine Coroutines.safe_bind _ (materializes_payload hskill hs₂) ?_
  intro _ s₃ hs₃
  refine Coroutines.safe_bind _ (materializes_publish hs₃) ?_
  intro _ s₄ hs₄
  exact materializes_target hskill hstable (fun _ h => h) hs₄

theorem stable_since : Stable slot began fun s => began.verified slot <:+ s.verified slot where
  rely _ _ hrely h := hrely.verified ▸ h
  record _ root h := h.trans (suffix_record root)
  since _ h := h

theorem materializes_materialize (hskill : skill.contentDigest = contentDigest) :
    Materializes sha256 contentDigest materializer slot skill began (fun _ => True)
      (Published sha256 contentDigest materializer slot began)
      (materializer.materialize contentDigest slot skill) began := by
  unfold SkillMaterializer.materialize
  have hsince : Stable slot began fun s => began.verified slot <:+ s.verified slot := stable_since
  refine Coroutines.safe_bind _ (P := fun _ s => began.verified slot <:+ s.verified slot) ?_ ?_
  · intro s _ hrely
    exact ⟨nofun, fun _ _ => ⟨CacheStep.refl slot s, hsince.rely began s hrely List.suffix_rfl⟩⟩
  intro there s hs
  cases there with
  | true =>
    refine Coroutines.safe_mono _ (fun _ _ h => h) (fun _ _ h => h) ?_
      (materializes_target hskill hsince (fun _ _ => trivial) hs)
    exact fun _ _ h => h.2
  | false =>
    refine Coroutines.safe_bind _ (P := fun _ s => began.verified slot <:+ s.verified slot) ?_ ?_
    · intro s₀ _ hrely
      exact ⟨nofun, fun _ _ => ⟨CacheStep.refl slot s₀, hsince.rely s s₀ hrely hs⟩⟩
    intro made s₀ hs₀
    refine Coroutines.safe_bind _ (P := fun _ s => began.verified slot <:+ s.verified slot) ?_ ?_
    · exact Coroutines.safe_ofExcept _ (fun _ _ => hs₀) fun _ _ => trivial
    intro _ s₁ hs₁
    refine Coroutines.safe_bind _ (P := fun made s => ∀ temporary, made = .ok temporary →
      Holding slot began temporary s) ?_ ?_
    · intro s₂ _ hrely
      refine ⟨nofun, fun candidates _ => ?_⟩
      show CacheStep slot s₂ (s₂.mkdtemp slot candidates).2 ∧ ∀ temporary,
        (s₂.mkdtemp slot candidates).1 = .ok temporary →
          Holding slot began temporary (s₂.mkdtemp slot candidates).2
      rcases mkdtemp_spec slot candidates s₂ with ⟨error, hmade⟩ | ⟨name, s₃, hmade, hstep, hverified, hown⟩
      · rw [hmade]
        exact ⟨CacheStep.refl slot s₂, nofun⟩
      · rw [hmade]
        refine ⟨hstep, fun temporary htemporary => ?_⟩
        obtain rfl := Except.ok.inj htemporary
        obtain ⟨payload, hpayload⟩ := hown
        exact ⟨payload, hpayload, hverified ▸ hsince.rely s₁ s₂ hrely hs₁⟩
    intro made s₂ hs₂
    refine Coroutines.safe_bind _ (P := fun temporary s => Holding slot began temporary s) ?_ ?_
    · apply Coroutines.safe_ofExcept
      · intro temporary htemporary
        cases made with
        | error error => cases htemporary
        | ok name =>
          obtain rfl := Except.ok.inj htemporary
          exact hs₂ name rfl
      · exact fun _ _ => trivial
    intro temporary s₃ hs₃
    have hstable : Stable slot began (Holding slot began temporary) := stable_holding temporary
    apply Coroutines.safe_ensuring
    apply Coroutines.safe_mono _ (fun _ _ h => h) _ _ (materializes_stage hskill hs₃)
    · intro error s₄ hs₄ s₅ _ hrely
      have hs₅ := hstable.rely s₄ s₅ hrely hs₄
      exact ⟨nofun, fun left _ => ⟨step_rmtree hs₅.owned left, trivial⟩⟩
    · intro value s₄ hs₄ s₅ _ hrely
      have hs₅ := hstable.rely s₄ s₅ hrely hs₄.1
      refine ⟨nofun, fun left _ => ⟨step_rmtree hs₅.owned left, ?_⟩⟩
      apply (hs₄.2.stable hrely.verified).stable
      cases left <;> rfl

end

/-! ## 4. Runs -/

section

variable {sha256 : Bytes → String} {contentDigest : String} {materializer : SkillMaterializer}
  {cache : Cache} {inputs : List (materializing sha256 materializer contentDigest).Input}

/-- A call goes on safely from where it starts. -/
theorem materialize_goes (slot : ℕ) (skill : SkillDefinition) (began : Cache)
    (hadmits : (materializing sha256 materializer contentDigest).admits slot skill = true) :
    (materializing sha256 materializer contentDigest).Goes (fun _ _ => True) (fun _ => True) Untouched
      CacheStep (CacheIssue sha256 contentDigest)
      (fun slot _ => CacheReturns sha256 contentDigest materializer slot) slot skill began
      ((materializing sha256 materializer contentDigest).program slot skill) began := by
  have hskill : skill.contentDigest = contentDigest := of_decide_eq_true hadmits
  refine Coroutines.safe_mono _ (fun _ _ h => h) ?_ ?_ (materializes_materialize hskill)
  · intro error s _ s' _ _ value hvalue
    cases hvalue
  · intro value s hs s' _ hrely value' hvalue
    obtain rfl := Except.ok.inj hvalue
    exact hs.stable hrely.verified

/-- What a call guarantees to the others, and what it relies on, along every run. -/
theorem materializing_spec : ∀ t ∈ (materializing sha256 materializer contentDigest).machine.trace
      ((materializing sha256 materializer contentDigest).initial cache) inputs,
    (materializing sha256 materializer contentDigest).Meets CacheStep
      (CacheIssue sha256 contentDigest)
      (fun slot _ => CacheReturns sha256 contentDigest materializer slot) t := by
  intro t ht
  exact (Coroutines.trace_spec Untouched.refl (fun _ _ _ _ => Untouched.trans)
    (fun _ _ _ _ h => ⟨trivial, h.others⟩) (fun slot skill s _ => materialize_goes slot skill s)
    (Coroutines.coherent_initial trivial) (fun _ _ _ _ _ _ _ _ _ _ _ => trivial) t ht).2

theorem materializing_answers :
    ∀ t ∈ (materializing sha256 materializer contentDigest).machine.trace
      ((materializing sha256 materializer contentDigest).initial cache) inputs,
    ∀ slot skill began statement, t.output = .answered slot skill began statement →
      CacheIssue sha256 contentDigest slot skill began t.before.shared statement :=
  Coroutines.trace_answers Untouched.refl (fun _ _ _ _ => Untouched.trans)
    (fun _ _ _ _ h => ⟨trivial, h.others⟩) (fun slot skill s _ => materialize_goes slot skill s)
    (Coroutines.coherent_initial trivial) (fun _ _ _ _ _ _ _ _ _ _ _ => trivial)

theorem entryKept_of_meets {t : (materializing sha256 materializer contentDigest).Step}
    (h : (materializing sha256 materializer contentDigest).Meets CacheStep
      (CacheIssue sha256 contentDigest)
      (fun slot _ => CacheReturns sha256 contentDigest materializer slot) t) :
    EntryKept t.before.shared.target t.after.shared.target := by
  obtain ⟨before, input, output, after⟩ := t
  cases output with
  | answered => exact h.entry
  | issued =>
    obtain ⟨-, hsame⟩ := h
    exact hsame ▸ EntryKept.refl _
  | returned =>
    obtain ⟨-, hsame⟩ := h
    exact hsame ▸ EntryKept.refl _
  | ignored =>
    have hsame : after.shared = before.shared := h
    exact hsame ▸ EntryKept.refl _
  | started =>
    have hsame : after.shared = before.shared := h
    exact hsame ▸ EntryKept.refl _
  | interrupted =>
    have hsame : after.shared = before.shared := h
    exact hsame ▸ EntryKept.refl _

theorem returned_of_meets {t : (materializing sha256 materializer contentDigest).Step}
    (h : (materializing sha256 materializer contentDigest).Meets CacheStep
      (CacheIssue sha256 contentDigest)
      (fun slot _ => CacheReturns sha256 contentDigest materializer slot) t)
    {slot : ℕ} {skill : SkillDefinition} {began : Cache}
    {result : Except MaterializationError MaterializedSkill}
    (ht : t.output = .returned slot skill began result) :
    CacheReturns sha256 contentDigest materializer slot began t.before.shared result := by
  unfold Coroutines.Meets at h
  rw [ht] at h
  exact h.1

end

/-- The digest of a directory tells its files apart, in whatever order they are found.  Of any number of
calls for one content digest, whatever the cache holds at first and whatever the fetchers leave: a call
returns the cache entry only after the last directory it took a digest of there had that digest; what is
moved to the entry is what the call has verified; and an entry that is a directory with something in it is
not replaced, changed or removed.  An entry that is a file or a link gives way to a link that a fetcher
has left, and to nothing else. -/
theorem materialization_verified {sha256 : Bytes → String} (hsha256 : Function.Injective sha256) :
    (∀ (root root' : String) (tree tree' : Tree) (digest digest' : String),
      tree.digest sha256 root = .ok digest → tree'.digest sha256 root' = .ok digest' →
        (digest = digest' ↔ tree.SameFiles tree')) ∧
    (∀ (root : String) (tree : Tree), (∃ digest, tree.digest sha256 root = .ok digest) ↔
      tree.SymlinkFree ∧ ∀ path content, (path, Node.file content) ∈ tree.entries →
        Fits (path.asPosix, content)) ∧
    ∀ (materializer : SkillMaterializer) (contentDigest : String) (cache : Cache)
      (inputs : List (materializing sha256 materializer contentDigest).Input),
      ∀ t ∈ (materializing sha256 materializer contentDigest).machine.trace
        ((materializing sha256 materializer contentDigest).initial cache) inputs,
        (∀ slot skill began value, t.output = .returned slot skill began (.ok value) →
          value.rootPath = materializer.path contentDigest .target ∧
            ∃ tree, LastVerified sha256 contentDigest slot began t.before.shared .target tree) ∧
        (∀ slot skill began temporary,
          t.output = .answered slot skill began (.rename temporary) →
            MovesVerified sha256 contentDigest slot skill began t.before.shared temporary) ∧
        EntryKept t.before.shared.target t.after.shared.target := by
  refine ⟨fun _ _ _ _ _ _ => Tree.digest_eq_iff hsha256, fun _ _ => Tree.exists_digest_iff, ?_⟩
  intro materializer contentDigest cache inputs t ht
  have hmeets := materializing_spec t ht
  refine ⟨?_, ?_, entryKept_of_meets hmeets⟩
  · intro slot skill began value hreturned
    exact returned_of_meets hmeets hreturned value rfl
  · intro slot skill began temporary hanswered
    exact materializing_answers t ht slot skill began _ hanswered temporary rfl

/-! ### A directory found in two orders -/

def listed : Tree where
  entries := [(⟨["SKILL.md"], by decide⟩, .file [111, 107]), (⟨["docs"], by decide⟩, .directory),
    (⟨["docs", "a"], by decide⟩, .file [])]
  nodup := by decide

def relisted : Tree where
  entries := [(⟨["docs"], by decide⟩, .directory), (⟨["docs", "a"], by decide⟩, .file []),
    (⟨["SKILL.md"], by decide⟩, .file [111, 107])]
  nodup := by decide

/-- SHA-256 on what these directories feed to it, and a function that tells all else apart. -/
def sampleSha256 (bytes : Bytes) : String :=
  if bytes = [0, 0, 0, 0, 0, 0, 0, 8, 83, 75, 73, 76, 76, 46, 109, 100, 0, 0, 0, 0, 0, 0, 0, 2, 111,
      107, 0, 0, 0, 0, 0, 0, 0, 6, 100, 111, 99, 115, 47, 97, 0, 0, 0, 0, 0, 0, 0, 0] then
    "b0c515f1d8adaabdd5d338db10b7a0512ed34f44f0018c00165ff190da5c58db"
  else "#" ++ String.ofList (bytes.map fun byte => Char.ofNat byte.toNat)

theorem sampleSha256_injective : Function.Injective sampleSha256 := by
  have hbytes : ∀ n : Fin 256, (Char.ofNat n).toNat = n := by decide +kernel
  have hchar : Function.Injective fun byte : UInt8 => Char.ofNat byte.toNat := by
    intro a b h
    have ha := hbytes ⟨a.toNat, a.toNat_lt⟩
    have hb := hbytes ⟨b.toNat, b.toNat_lt⟩
    exact UInt8.toNat_inj.mp (ha.symm.trans ((congrArg Char.toNat h).trans hb))
  have hother : ∀ bytes : Bytes,
      "b0c515f1d8adaabdd5d338db10b7a0512ed34f44f0018c00165ff190da5c58db" ≠
        "#" ++ String.ofList (bytes.map fun byte => Char.ofNat byte.toNat) := by
    intro bytes h
    have hhead := congrArg (fun s => s.toList.head?) h
    simp at hhead
  intro bytes other h
  unfold sampleSha256 at h
  split at h <;> split at h
  · rename_i hbytes hother
    rw [hbytes, hother]
  · exact absurd h (hother other)
  · exact absurd h.symm (hother bytes)
  · have hlist := String.ofList_injective ((String.append_right_inj _).mp h)
    exact List.map_injective_iff.mpr hchar hlist

theorem listed_sameFiles : listed.SameFiles relisted := by
  have hiff := (materialization_verified sampleSha256_injective).1 "/cache" "/cache" listed relisted
    "sha256:b0c515f1d8adaabdd5d338db10b7a0512ed34f44f0018c00165ff190da5c58db"
    "sha256:b0c515f1d8adaabdd5d338db10b7a0512ed34f44f0018c00165ff190da5c58db"
    (by decide +kernel) (by decide +kernel)
  exact hiff.mp rfl

end JbOrchestrator.Skills
