import GoToSymbol.Proofs.Index.Counting
import GoToSymbol.Proofs.Index.Sessions

namespace GoToSymbol

open GoToSymbol.Action Store

/-- How a storage matches queries: a field token by token, and the rest by what the parts match. -/
structure Query.Laws (meets : Query → Stored → Prop) : Prop where
  whole : ∀ {field text d}, meets (.token field (.whole text)) d ↔ text.toList ∈ d.tokens field
  beginning : ∀ {field text d}, meets (.token field (.beginning text)) d ↔
    ∃ t ∈ d.tokens field, text.toList <+: t
  like : ∀ {field pattern d}, meets (.token field (.like pattern)) d ↔
    ∃ t ∈ d.tokens field, globMatches pattern.toList t = true
  anyOf : ∀ {qs d}, meets (.anyOf qs) d ↔ ∃ q ∈ qs, meets q d
  allOf : ∀ {qs d}, qs ≠ [] → (meets (.allOf qs) d ↔ ∀ q ∈ qs, meets q d)
  without : ∀ {kept excluded d}, meets (.without kept excluded) d ↔ meets kept d ∧ ¬ meets excluded d
  best : ∀ {qs tieBreak d}, meets (.best qs tieBreak) d ↔ ∃ q ∈ qs, meets q d

theorem Query.laws_accepts : Query.Laws fun q d => q.accepts d = true where
  whole := by simp [accepts, TokenTest.admits]
  beginning := by simp [accepts, TokenTest.admits]
  like := by simp [accepts, TokenTest.admits]
  anyOf := by simp [accepts, acceptsAny_eq_any]
  allOf _ := by simp [accepts, acceptsAll_eq_all]
  without := by simp [accepts]
  best := by simp [accepts, acceptsAny_eq_any]

namespace Store

/-- What a writer is to publish: the committed documents that it found and did not mark, and those
that it staged. -/
structure Draft where
  kept : List Stored
  staged : List Stored

namespace Draft

def stage (ds : List Stored) (l : Draft) : Draft := { l with staged := l.staged ++ ds }

/-- Marks the documents that meet a test. -/
def mark (test : Stored → Bool) (l : Draft) : Draft :=
  { l with kept := l.kept.filter fun d => !test d }

theorem stage_stage (xs ys : List Stored) (l : Draft) :
    (l.stage xs).stage ys = l.stage (xs ++ ys) := by
  simp [stage]

theorem mark_mark (p q : Stored → Bool) (l : Draft) :
    (l.mark p).mark q = l.mark fun d => p d || q d := by
  simp [mark, List.filter_filter, Bool.and_comm]

end Draft

/-- What can be told of the states of a storage. -/
structure View (σ ω : Type) where
  /-- The documents of the committed index, if there is one. -/
  indexed : σ → Option (List Stored)
  /-- What a writer is to publish, while it is at work. -/
  draft : σ → ω → Option Draft
  /-- The committed documents that match a query, in the order in which a search lists them. -/
  ranking : σ → Query → List Stored
  meets : Query → Stored → Bool
  /-- The storage once its directory was deleted. -/
  deleted : σ → σ

variable {σ ω α : Type}

/-- What is committed is the same afterwards. -/
def View.Quiet (v : View σ ω) (t : Action σ α) : Prop :=
  ∀ {x r x'}, Ends t x r x' → v.indexed x' = v.indexed x

/-- What an index relies on of its storage. That a commit and a cancellation give back the lock is
said by `Medium.Locks`. -/
structure Medium.Laws (m : Medium σ ω) (v : View σ ω) : Prop where
  /-- A storage has an index only if one was committed. -/
  hasIndex : ∀ x, m.hasIndex x = (v.indexed x).isSome
  /-- An index that is created is empty. -/
  openIndex : ∀ {x x'}, Ends m.openIndex x (.ok ()) x' →
    v.indexed x' = some ((v.indexed x).getD [])
  /-- A new writer finds the committed documents. -/
  startWriter : ∀ {x w x'}, Ends m.startWriter x (.ok w) x' →
    ∃ ds, v.indexed x = some ds ∧ v.draft x' w = some ⟨ds, []⟩
  /-- A writer stages every document that the store takes, whatever became of its directory. -/
  add : ∀ {x w l d stored}, v.draft x w = some l → Stored.ofDocument d = .ok stored →
    ∃ x', Ends (m.add w d) x (.ok ()) x' ∧ v.draft x' w = some (l.stage [stored])
  /-- Of a document with an unknown field nothing is staged. -/
  refuse : ∀ {x w l d name}, v.draft x w = some l →
    Stored.ofDocument d = .error (.unknownField name) →
    ∃ x', Ends (m.add w d) x (.error (.unknownField name)) x' ∧ v.draft x' w = some l
  /-- A deletion marks and counts the documents that the writer found, as far as they are not marked
  yet, and none that it staged. -/
  erase : ∀ {x w l q n x'}, v.draft x w = some l → Ends (m.erase w q) x (.ok n) x' →
    n = l.kept.countP (v.meets q) ∧ v.draft x' w = some (l.mark (v.meets q))
  commit : ∀ {x w l x'}, v.draft x w = some l → Ends (m.commit w) x (.ok ()) x' →
    ∃ ds, v.indexed x' = some ds ∧ ds.Perm (l.kept ++ l.staged)
  /-- A cancellation discards what was staged, also where it fails. -/
  cancel : ∀ {x w r x'}, Ends (m.cancel w) x r x' → v.draft x' w = none
  /-- A search lists the first documents of a fixed ranking. -/
  search : ∀ {x q limit found x'}, Ends (m.search q limit) x (.ok found) x' →
    found = ((v.ranking x q).take limit.toNat).map Stored.document
  ranking : ∀ {x ds q}, v.indexed x = some ds → (v.ranking x q).Perm (ds.filter (v.meets q))
  matching : Query.Laws fun q d => v.meets q d = true
  deleted : ∀ x, v.indexed (v.deleted x) = none
  deleted_draft : ∀ x w, v.draft (v.deleted x) w = v.draft x w
  quiet_startWriter : v.Quiet m.startWriter
  quiet_add : ∀ w d, v.Quiet (m.add w d)
  quiet_erase : ∀ w q, v.Quiet (m.erase w q)
  quiet_cancel : ∀ w, v.Quiet (m.cancel w)

/-- The tag of a document is one token as it stands, and it is stored as it stands. -/
theorem Stored.tag_verbatim {d : Document} {x : Stored} (h : ofDocument d = .ok x) {s : String}
    (hs : d.get? tagField = some (.text s)) :
    x.tokens tagField = [s.toList] ∧ x.document.get? tagField = some (.text s) := by
  have hfield : textField tagField d.writerFields = .ok (some s) := by
    unfold textField
    rw [get?_writerFields d (by decide), hs]
  have htag : x.tag = some s := by
    unfold ofDocument ofWriterFields at h
    simp only [hfield, Bind.bind, Except.bind, Pure.pure, Except.pure] at h
    split at h
    · exact absurd h (by simp)
    · split at h
      · exact absurd h (by simp)
      · split at h
        · exact absurd h (by simp)
        · cases h
          rfl
  constructor
  · simp [tokens, htag, tagField, fileField, fqnField]
  · cases hfqn : x.fqn <;>
      simp [document, Document.get?, Value.get?, htag, hfqn, tagField, fqnField]

namespace View

variable (v : View σ ω) (a : Access σ ω)

def committed : List Stored := (v.indexed a.storage).getD []

/-- What the next commit is to publish: what the pending writer has, or what is committed. -/
def pending : Draft := (a.writer.bind (v.draft a.storage)).getD ⟨v.committed a, []⟩

/-- The pending writer is at work. -/
def Drafted : Prop := ∀ w, a.writer = some w → (v.draft a.storage w).isSome

variable {v a} {w : ω} {l : Draft}

theorem pending_of_draft (hw : a.writer = some w) (hl : v.draft a.storage w = some l) :
    v.pending a = l := by
  simp [pending, hw, hl]

theorem drafted_of_draft (hw : a.writer = some w) (hl : v.draft a.storage w = some l) :
    v.Drafted a := by
  intro w' hw'
  cases hw.symm.trans hw'
  exact Option.isSome_iff_exists.mpr ⟨l, hl⟩

theorem committed_congr {b : Access σ ω} (h : v.indexed b.storage = v.indexed a.storage) :
    v.committed b = v.committed a := by
  rw [committed, committed, h]

end View

namespace Medium.Laws

variable {m : Medium σ ω} {v : View σ ω} {a a' : Access σ ω} {w : ω} {l : Draft}

theorem useIndex (hm : m.Laws v) (h : Ends m.useIndex a (.ok ()) a') :
    a'.writer = a.writer ∧ v.committed a' = v.committed a ∧
      ∀ ds, v.indexed a.storage = some ds → v.indexed a'.storage = some ds := by
  unfold Medium.useIndex at h
  rw [ends_read_bind] at h
  split at h
  · rw [(ends_pure.mp h).2]
    exact ⟨rfl, rfl, fun _ => id⟩
  · obtain ⟨_, b, hopen, hset⟩ := ends_bind_ok.mp h
    obtain ⟨x, hx, rfl⟩ := Access.ends_ask.mp hopen
    obtain ⟨_, rfl⟩ := ends_update.mp hset
    have hindexed := hm.openIndex hx
    refine ⟨rfl, ?_, fun ds hds => ?_⟩
    · change (v.indexed x).getD [] = v.committed a
      rw [hindexed]
      rfl
    · rw [hds] at hindexed
      exact hindexed

/-- A writer that could be had has what is pending. -/
theorem useWriter (hm : m.Laws v) (ha : v.Drafted a) (h : Ends m.useWriter a (.ok w) a') :
    a'.writer = some w ∧ v.draft a'.storage w = some (v.pending a) ∧
      v.committed a' = v.committed a := by
  refine ⟨Access.writer_of_useWriter h, ?_⟩
  unfold Medium.useWriter at h
  rw [ends_read_bind] at h
  split at h
  · next w' hw =>
    obtain ⟨hr, rfl⟩ := ends_pure.mp h
    cases hr
    obtain ⟨l, hl⟩ := Option.isSome_iff_exists.mp (ha w hw)
    rw [hl, View.pending_of_draft hw hl]
    exact ⟨rfl, rfl⟩
  · next hw =>
    obtain ⟨_, b, hindex, h⟩ := ends_bind_ok.mp h
    obtain ⟨w', c, hstart, h⟩ := ends_bind_ok.mp h
    rw [ends_update_bind, ends_pure] at h
    obtain ⟨hr, rfl⟩ := h
    cases hr
    obtain ⟨x, hask, rfl⟩ := Access.ends_askNoting.mp hstart
    obtain ⟨_, hcommitted, _⟩ := hm.useIndex hindex
    obtain ⟨ds, hds, hdraft⟩ := hm.startWriter hask
    have hpending : v.pending a = ⟨ds, []⟩ := by
      have hfound : v.committed b = ds := by rw [View.committed, hds]; rfl
      simp [View.pending, hw, ← hcommitted, hfound]
    rw [hpending]
    exact ⟨hdraft, (View.committed_congr (hm.quiet_startWriter hask)).trans hcommitted⟩

/-- A writer stages all documents of a list that the store takes. -/
theorem addAll (hm : m.Laws v) {ds : List Document} {xs : List Stored}
    (hx : List.Forall₂ (fun d x => Stored.ofDocument d = .ok x) ds xs)
    (hl : v.draft a.storage w = some l) :
    ∃ x, Ends (m.addAll w ds) a (.ok ()) (a.setStorage x) ∧ v.draft x w = some (l.stage xs) ∧
      v.indexed x = v.indexed a.storage := by
  induction hx generalizing a l with
  | nil => exact ⟨a.storage, ends_succeed.mpr ⟨rfl, rfl⟩, by simpa [Draft.stage] using hl, rfl⟩
  | @cons d x ds xs hd _ ih =>
    obtain ⟨y, hadd, hy⟩ := hm.add hl hd
    obtain ⟨z, hrest, hz, hindexed⟩ := @ih (a.setStorage y) _ hy
    refine ⟨z, ?_, by simpa [Draft.stage_stage] using hz, hindexed.trans (hm.quiet_add w d hadd)⟩
    exact ends_bind_ok.mpr ⟨(), _, Access.ends_ask.mpr ⟨y, hadd, rfl⟩, hrest⟩

/-- A document with an unknown field ends a list, of which those before it are staged. -/
theorem addAll_refused (hm : m.Laws v) {good rest : List Document} {bad : Document} {name : String}
    {xs : List Stored} (hx : List.Forall₂ (fun d x => Stored.ofDocument d = .ok x) good xs)
    (hbad : Stored.ofDocument bad = .error (.unknownField name))
    (hl : v.draft a.storage w = some l) :
    ∃ x, Ends (m.addAll w (good ++ bad :: rest)) a (.error (.unknownField name)) (a.setStorage x) ∧
      v.draft x w = some (l.stage xs) := by
  induction hx generalizing a l with
  | nil =>
    obtain ⟨y, hrefuse, hy⟩ := hm.refuse hl hbad
    refine ⟨y, ends_bind.mpr (Or.inr ⟨_, Access.ends_ask.mpr ⟨y, hrefuse, rfl⟩, rfl⟩), ?_⟩
    simpa [Draft.stage] using hy
  | @cons d x ds xs hd _ ih =>
    obtain ⟨y, hadd, hy⟩ := hm.add hl hd
    obtain ⟨z, hrest, hz⟩ := @ih (a.setStorage y) _ hy
    refine ⟨z, ?_, by simpa [Draft.stage_stage] using hz⟩
    exact ends_bind.mpr (Or.inl ⟨(), _, Access.ends_ask.mpr ⟨y, hadd, rfl⟩, hrest⟩)

/-- Deletions that a writer stages one after the other count together what any of them matches. -/
theorem eraseAll (hm : m.Laws v) {qs : List Query} {n : Nat} (hl : v.draft a.storage w = some l)
    (h : Ends (m.eraseAll w qs) a (.ok n) a') :
    n = l.kept.countP (fun d => qs.any (v.meets · d)) ∧ a'.writer = a.writer ∧
      v.draft a'.storage w = some (l.mark fun d => qs.any (v.meets · d)) ∧
      v.indexed a'.storage = v.indexed a.storage := by
  induction qs generalizing a l n with
  | nil =>
    obtain ⟨hn, rfl⟩ := ends_succeed.mp h
    cases hn
    exact ⟨by simp, rfl, by simpa [Draft.mark] using hl, rfl⟩
  | cons q qs ih =>
    obtain ⟨k, b, hfirst, hrest⟩ := ends_bind_ok.mp h
    obtain ⟨j, hlast, rfl⟩ := ends_bind_pure_ok.mp hrest
    obtain ⟨x, herase, rfl⟩ := Access.ends_ask.mp hfirst
    obtain ⟨rfl, hx⟩ := hm.erase hl herase
    obtain ⟨rfl, hwriter, hmarked, hindexed⟩ := ih hx hlast
    refine ⟨countP_add_countP_filter _ _ _, hwriter, ?_, ?_⟩
    · rw [hmarked, Draft.mark_mark]
      rfl
    · exact hindexed.trans (hm.quiet_erase w q herase)

/-- A put that publishes nothing stages its documents after those that were pending. -/
theorem put (hm : m.Laws v) (ha : v.Drafted a) {ds : List Document} {xs : List Stored}
    (hx : List.Forall₂ (fun d x => Stored.ofDocument d = .ok x) ds xs)
    (h : Ends (m.put ds false) a (.ok ()) a') :
    v.Drafted a' ∧ v.pending a' = (v.pending a).stage xs ∧ v.committed a' = v.committed a := by
  obtain ⟨w, b, huse, hrest⟩ := ends_bind_ok.mp h
  obtain ⟨hwriter, hdraft, hcommitted⟩ := hm.useWriter ha huse
  obtain ⟨_, c, hadd, hend⟩ := ends_bind_ok.mp hrest
  obtain ⟨_, rfl⟩ := ends_pure.mp hend
  obtain ⟨x, hstaged, hx, hindexed⟩ := hm.addAll hx hdraft
  obtain ⟨_, rfl⟩ := hadd.unique hstaged
  exact ⟨View.drafted_of_draft hwriter hx, View.pending_of_draft hwriter hx,
    (View.committed_congr hindexed).trans hcommitted⟩

/-- A put that meets an unknown field leaves what a put of the documents before it leaves. -/
theorem put_unknown (hm : m.Laws v) (ha : v.Drafted a) {good rest : List Document} {bad : Document}
    {name : String} {xs : List Stored} {publish : Bool} {r : Except Failure Unit}
    (hx : List.Forall₂ (fun d x => Stored.ofDocument d = .ok x) good xs)
    (hbad : Stored.ofDocument bad = .error (.unknownField name)) {b : Access σ ω}
    (huse : Ends m.useWriter a (.ok w) b)
    (h : Ends (m.put (good ++ bad :: rest) publish) a r a') :
    r = .error (.unknownField name) ∧ v.pending a' = (v.pending a).stage xs := by
  obtain ⟨hwriter, hdraft, _⟩ := hm.useWriter ha huse
  obtain ⟨x, hrefused, hx⟩ : ∃ x, Ends (m.addAll w (good ++ bad :: rest)) b
      (.error (.unknownField name)) (b.setStorage x) ∧ v.draft x w = some ((v.pending a).stage xs) :=
    hm.addAll_refused hx hbad hdraft
  have hput : Ends (m.put (good ++ bad :: rest) publish) a (.error (.unknownField name))
      (b.setStorage x) := by
    refine ends_bind.mpr (Or.inl ⟨w, b, huse, ?_⟩)
    exact ends_bind.mpr (Or.inr ⟨_, hrefused, rfl⟩)
  obtain ⟨rfl, rfl⟩ := h.unique hput
  exact ⟨rfl, View.pending_of_draft hwriter hx⟩

/-- A deletion that publishes nothing counts what it matches of the documents that were committed
and not marked before. -/
theorem delete (hm : m.Laws v) (ha : v.Drafted a) {qs : List Query} {n : Nat}
    (h : Ends (m.delete qs false) a (.ok n) a') :
    n = (v.pending a).kept.countP (fun d => qs.any (v.meets · d)) ∧ v.Drafted a' ∧
      v.pending a' = (v.pending a).mark (fun d => qs.any (v.meets · d)) ∧
      v.committed a' = v.committed a := by
  obtain ⟨w, b, huse, hrest⟩ := ends_bind_ok.mp h
  obtain ⟨hwriter, hdraft, hcommitted⟩ := hm.useWriter ha huse
  obtain ⟨k, c, herase, hend⟩ := ends_bind_ok.mp hrest
  obtain ⟨hr, rfl⟩ := ends_pure.mp hend
  cases hr
  obtain ⟨hcount, hsame, hmarked, hindexed⟩ := hm.eraseAll hdraft herase
  rw [hwriter] at hsame
  exact ⟨hcount, View.drafted_of_draft hsame hmarked, View.pending_of_draft hsame hmarked,
    (View.committed_congr hindexed).trans hcommitted⟩

/-- A commit publishes what was pending, and nothing but that. -/
theorem flush (hm : m.Laws v) (ha : v.Drafted a) (hw : a.writer = some w)
    (h : Ends m.flush a (.ok ()) a') :
    (v.committed a').Perm ((v.pending a).kept ++ (v.pending a).staged) ∧ a'.writer = none := by
  obtain ⟨l, hl⟩ := Option.isSome_iff_exists.mp (ha w hw)
  rw [View.pending_of_draft hw hl]
  unfold Medium.flush at h
  rw [ends_read_bind, hw, if_neg (by simp)] at h
  split at h
  · rw [ends_update_bind] at h
    rcases ends_rescue.mp h with ⟨_, hcommit, _⟩ | ⟨f, b, _, hfailed⟩
    · obtain ⟨x, hx, rfl⟩ := Access.ends_askNoting.mp hcommit
      obtain ⟨ds, hds, hperm⟩ := hm.commit hl hx
      refine ⟨?_, rfl⟩
      change ((v.indexed x).getD []).Perm _
      rw [hds]
      exact hperm
    · obtain ⟨_, _, _, hfail⟩ := ends_bind_ok.mp hfailed
      exact absurd (ends_fail.mp hfail).1 (by simp)
  · obtain ⟨_, _, _, hfail⟩ := ends_bind_ok.mp h
    exact absurd (ends_fail.mp hfail).1 (by simp)

/-- A writer that is given up has nothing staged any more. -/
theorem giveUp (hm : m.Laws v) {r : Except Failure Unit} (h : Ends (m.giveUp w) a r a') :
    r = .ok () ∧ a'.writer = a.writer ∧ v.draft a'.storage w = none ∧
      v.indexed a'.storage = v.indexed a.storage := by
  rcases ends_rescue.mp h with ⟨_, hcancel, rfl⟩ | ⟨f, b, hcancel, hlog⟩
  · obtain ⟨x, hx, rfl⟩ := Access.ends_askNoting.mp hcancel
    exact ⟨rfl, rfl, hm.cancel hx, hm.quiet_cancel w hx⟩
  · obtain ⟨x, hx, rfl⟩ := Access.ends_askNoting.mp hcancel
    obtain ⟨hr, rfl⟩ := ends_log.mp hlog
    exact ⟨hr, rfl, hm.cancel hx, hm.quiet_cancel w hx⟩

theorem abandon (hm : m.Laws v) (hw : a.writer = some w) {r : Except Failure Unit}
    (h : Ends m.abandon a r a') :
    r = .ok () ∧ a'.writer = none ∧ v.draft a'.storage w = none ∧
      v.indexed a'.storage = v.indexed a.storage := by
  unfold Medium.abandon at h
  rw [ends_read_bind, hw] at h
  simp only [ends_update_bind] at h
  rcases ends_bind.mp h with ⟨_, c, hgiven, hdrop⟩ | ⟨f, hgiven, _⟩
  · obtain ⟨_, hwriter, hdraft, hindexed⟩ := hm.giveUp hgiven
    obtain ⟨hr, rfl⟩ := ends_update.mp hdrop
    exact ⟨hr, hwriter, hdraft, hindexed⟩
  · exact absurd (hm.giveUp hgiven).1 (by simp)

/-- Where there is no index a commit fails, and what was staged is lost. -/
theorem flush_gone (hm : m.Laws v) (hgone : v.indexed a.storage = none) (hw : a.writer = some w)
    {r : Except Failure Unit} (h : Ends m.flush a r a') :
    r = .error .missing ∧ a'.writer = none ∧ v.draft a'.storage w = none ∧
      v.indexed a'.storage = none := by
  have hnone : m.hasIndex a.storage = false := by
    rw [hm.hasIndex, hgone]
    rfl
  unfold Medium.flush at h
  rw [ends_read_bind, hw, hnone, if_neg (by simp), if_neg (by simp)] at h
  rcases ends_bind.mp h with ⟨_, b, hdone, hfail⟩ | ⟨f, hdone, _⟩
  · obtain ⟨hr, rfl⟩ := ends_fail.mp hfail
    obtain ⟨_, hwriter, hdraft, hindexed⟩ := hm.abandon hw hdone
    exact ⟨hr, hwriter, hdraft, hindexed.trans hgone⟩
  · exact absurd (hm.abandon hw hdone).1 (by simp)

/-- A pending writer stages documents although its directory was deleted. -/
theorem put_deleted (hm : m.Laws v) (hw : a.writer = some w) (hl : v.draft a.storage w = some l)
    {ds : List Document} {xs : List Stored}
    (hx : List.Forall₂ (fun d x => Stored.ofDocument d = .ok x) ds xs) :
    ∃ x, Ends (m.put ds false) (a.setStorage (v.deleted a.storage)) (.ok ()) (a.setStorage x) ∧
      v.draft x w = some (l.stage xs) ∧ v.indexed x = none := by
  have huse : Ends m.useWriter (a.setStorage (v.deleted a.storage)) (.ok w)
      (a.setStorage (v.deleted a.storage)) := by
    have hpending : (a.setStorage (v.deleted a.storage)).writer = some w := hw
    unfold Medium.useWriter
    rw [ends_read_bind, hpending]
    exact ends_pure.mpr ⟨rfl, rfl⟩
  have hleft : v.draft (a.setStorage (v.deleted a.storage)).storage w = some l :=
    (hm.deleted_draft a.storage w).trans hl
  obtain ⟨x, hstaged, hx, hindexed⟩ := hm.addAll hx hleft
  refine ⟨x, ends_bind_ok.mpr ⟨w, _, huse, ?_⟩, hx, hindexed.trans (hm.deleted a.storage)⟩
  exact ends_bind_ok.mpr ⟨(), _, hstaged, ends_pure.mpr ⟨rfl, rfl⟩⟩

/-- A search lists the first documents of a ranking of all committed documents that match. -/
theorem find (hm : m.Laws v) {q : Query} {limit : Int} {ds : List Stored} {found : List Document}
    (hds : v.indexed a.storage = some ds) (h : Ends (m.find q limit) a (.ok found) a') :
    ∃ ranked : List Stored, ranked.Perm (ds.filter (v.meets q)) ∧
      found = (ranked.take limit.toNat).map Stored.document := by
  unfold Medium.find at h
  split at h
  · next hlimit =>
    cases (ends_succeed.mp h).1
    have hnone : limit.toNat = 0 := by omega
    exact ⟨_, List.Perm.refl _, by simp [hnone]⟩
  · obtain ⟨_, b, hindex, hask⟩ := ends_bind_ok.mp h
    obtain ⟨x, hsearch, rfl⟩ := Access.ends_ask.mp hask
    obtain ⟨_, _, hkept⟩ := hm.useIndex hindex
    exact ⟨_, hm.ranking (hkept ds hds), hm.search hsearch⟩

end Medium.Laws

end Store

end GoToSymbol
