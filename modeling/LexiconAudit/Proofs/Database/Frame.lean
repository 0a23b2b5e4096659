import LexiconAudit.Proofs.Database.Matching
import LexiconAudit.Proofs.Database.Pairing

/-!
This module contains what a verification reads of a database. Two databases that agree on the answers of the
index and on a few fields of the live comments are verified with the same result, be it a discrepancy or none.
-/

namespace LexiconAudit.Database

variable {ε α β γ δ : Type}

/-! Two checks side by side. -/

inductive InStep (r : α → β → Prop) : Except ε α → Except ε β → Prop where
  | ok {a : α} {b : β} : r a b → InStep r (.ok a) (.ok b)
  | error (e : ε) : InStep r (.error e) (.error e)

theorem InStep.bind {r : α → β → Prop} {s : γ → δ → Prop} {x : Except ε α} {y : Except ε β}
    {f : α → Except ε γ} {g : β → Except ε δ} (h : InStep r x y) (hfg : ∀ a b, r a b → InStep s (f a) (g b)) :
    InStep s (x >>= f) (y >>= g) := by
  cases h with
  | ok hab => exact hfg _ _ hab
  | error e => exact .error e

theorem InStep.refl {r : α → α → Prop} (hr : ∀ a, r a a) (x : Except ε α) : InStep r x x := by
  cases x with
  | ok a => exact .ok (hr a)
  | error e => exact .error e

theorem InStep.eq {x y : Except ε α} (h : InStep Eq x y) : x = y := by
  cases h with
  | ok hab => rw [hab]
  | error => rfl

/-! Comments. -/

structure SameThread (c c' : Json) : Prop where
  content : (c.field? "content").bind Json.asString? = (c'.field? "content").bind Json.asString?
  status : (c.field? "status").bind Json.asString? = (c'.field? "status").bind Json.asString?
  replies : replyTexts c = replyTexts c'

structure SameComment (c c' : Json) : Prop extends SameThread c c' where
  id : documentId? c = documentId? c'
  target : target c = target c'

structure SameOpen (o o' : OpenComment) : Prop where
  key : o.key = o'.key
  thread : SameThread o.comment o'.comment

theorem SameComment.refl (c : Json) : SameComment c c :=
  ⟨⟨rfl, rfl, rfl⟩, rfl, rfl⟩

theorem compareThread_congr {c c' : Json} (h : SameThread c c') (key : String) (record : Nat) (thread : Thread) :
    compareThread key record c thread = compareThread key record c' thread := by
  have hstatus : compareStatus key record c = compareStatus key record c' := by
    funext status
    unfold compareStatus
    rw [h.status]
  unfold compareThread
  rw [hstatus, h.replies]

theorem fits_congr {o o' : OpenComment} (h : SameOpen o o') (key : String) (content : Option String) :
    o.fits key content = o'.fits key content := by
  unfold OpenComment.fits
  rw [h.key, h.thread.content]

section Lists

variable {r : α → α → Prop} {p : α → Bool} (hp : ∀ x y, r x y → p x = p y)

include hp

theorem any_congr {xs ys : List α} (h : List.Forall₂ r xs ys) : xs.any p = ys.any p := by
  induction h with
  | nil => rfl
  | cons hxy _ ih => rw [List.any_cons, List.any_cons, hp _ _ hxy, ih]

theorem takeOnly_congr {xs ys : List α} (h : List.Forall₂ r xs ys) :
    Option.Rel (fun a b => r a.1 b.1 ∧ List.Forall₂ r a.2 b.2) (takeOnly p xs) (takeOnly p ys) := by
  induction h with
  | nil => exact .none
  | cons hxy hrest ih =>
    unfold takeOnly
    rw [hp _ _ hxy, any_congr hp hrest]
    split
    . split
      . exact .none
      . exact .some ⟨hxy, hrest⟩
    . generalize takeOnly p _ = found at ih
      generalize takeOnly p _ = found' at ih
      cases ih with
      | none => exact .none
      | some h => exact .some ⟨h.1, .cons hxy h.2⟩

end Lists

theorem matchNote_congr (record : Nat) (note : Node) {cs cs' : List OpenComment}
    (h : List.Forall₂ SameOpen cs cs') :
    InStep (List.Forall₂ SameOpen) (matchNote record note cs) (matchNote record note cs') := by
  unfold matchNote
  split
  . exact .error _
  next key _ =>
  dsimp only
  generalize (Thread.ofMessages? _) = thread
  have hfits (content : Option String) (o o' : OpenComment) (hsame : SameOpen o o') :
      OpenComment.fits key content o = OpenComment.fits key content o' := fits_congr hsame key content
  have htake := takeOnly_congr (hfits (thread.map Thread.content)) h
  generalize takeOnly _ cs = x at htake
  generalize takeOnly _ cs' = y at htake
  cases htake with
  | some hfound =>
    cases thread with
    | none => exact .ok hfound.2
    | some thread =>
      dsimp only
      rw [compareThread_congr hfound.1.thread]
      exact (InStep.refl (r := fun _ _ => True) (fun _ => trivial) _).bind fun _ _ _ => .ok hfound.2
  | none =>
    dsimp only
    rw [any_congr (hfits _) h, any_congr (hfits _) h]
    split
    . exact .error _
    . split <;> exact .error _

theorem matchNotes_congr (record : Nat) (notes : List Node) {cs cs' : List OpenComment}
    (h : List.Forall₂ SameOpen cs cs') : matchNotes record notes cs = matchNotes record notes cs' := by
  apply InStep.eq
  induction notes generalizing record cs cs' with
  | nil => exact .ok rfl
  | cons note notes ih => exact (matchNote_congr record note h).bind fun _ _ hrest => ih (record + 1) hrest

theorem targets_congr (position : Nat) {cs cs' : List Json} (h : List.Forall₂ SameComment cs cs') :
    targets position cs = targets position cs' := by
  induction h generalizing position with
  | nil => rfl
  | @cons c c' _ _ hsame _ ih =>
    have hlabel : commentLabel position c = commentLabel position c' := by
      unfold commentLabel
      rw [hsame.id]
    unfold targets
    rw [hsame.target, hlabel, ih]

theorem sameOpen_zipWith {cs cs' : List Json} (h : List.Forall₂ SameThread cs cs') (keys : List String) :
    List.Forall₂ SameOpen (List.zipWith OpenComment.mk keys cs) (List.zipWith OpenComment.mk keys cs') := by
  induction h generalizing keys with
  | nil => cases keys <;> exact .nil
  | cons hsame _ ih =>
    cases keys with
    | nil => exact .nil
    | cons key keys => exact .cons ⟨rfl, hsame⟩ (ih keys)

/-! Comparing a field reads one value only. -/

theorem compareSystems_congr {field : String} {record : Nat} {stored stored' : Json}
    {texts : List (String × String)} (h : ∀ text ∈ texts, stored.field? text.1 = stored'.field? text.1) :
    compareSystems field record stored texts = compareSystems field record stored' texts := by
  induction texts with
  | nil => rfl
  | cons text texts ih =>
    rw [List.forall_mem_cons] at h
    unfold compareSystems
    rw [h.1, ih h.2]

theorem compareText_congr {field : String} {record : Nat} {expected : Node} {stored stored' : Json}
    (hstring : stored.asString? = stored'.asString?)
    (hsystems : ∀ text ∈ systemTexts expected, stored.field? text.1 = stored'.field? text.1) :
    compareText field record expected stored = compareText field record expected stored' := by
  unfold compareText
  rw [hstring]
  split
  . rfl
  . rfl
  . exact compareSystems_congr hsystems

theorem compareField_congr {record : Nat} {fields fields' : List (String × Json)} {expected : Node}
    {r : Json → Json → Prop}
    (h : Option.Rel r (fields.lookup (fieldName expected.name)) (fields'.lookup (fieldName expected.name)))
    (hmarker : expected.expectsAbsence = true → ∀ value value', r value value' → value = value')
    (hstored : ∀ value value', r value value' →
      compareStored record expected value = compareStored record expected value') :
    compareField record fields expected = compareField record fields' expected := by
  rw [compareField_eq, compareField_eq]
  generalize fields.lookup (fieldName expected.name) = stored at h
  generalize fields'.lookup (fieldName expected.name) = stored' at h
  cases h with
  | none => rfl
  | some hvalue =>
    split
    . next hmark => rw [hmarker hmark _ _ hvalue]
    . exact hstored _ _ hvalue

theorem compareFields_congr {record : Nat} {fields fields' : List (String × Json)} {nodes : List Node}
    (h : ∀ node ∈ nodes, compareField record fields node = compareField record fields' node) :
    compareFields record fields nodes = compareFields record fields' nodes := by
  induction nodes with
  | nil => rfl
  | cons node nodes ih =>
    rw [List.forall_mem_cons] at h
    unfold compareFields
    rw [h.1, ih h.2]

/-! Databases. -/

def entryReference? (comment : Json) : Option String :=
  (comment.field? "entryRef").bind objectId?

def Unreferenced (comments : List Json) (entry : Json) : Prop :=
  ∀ comment ∈ liveDocuments comments, ∀ id, entryReference? comment = some id → documentId? entry ≠ some id

/--
Two lexicons that give the same answers to a verification: which headword is shared, how the expected entries
compare, and the headwords of the entries that live comments point at.
-/
structure Interchangeable (expected : Node) (comments lexicon lexicon' : List Json) : Prop where
  shared : (LexiconIndex.ofDocuments lexicon).sharedWord? = (LexiconIndex.ofDocuments lexicon').sharedWord?
  entries : ∀ part ∈ expected.children, part.name = Node.lexiconName → ∀ entry ∈ part.children, ∀ record,
    verifyEntry (.ofDocuments lexicon) record entry = verifyEntry (.ofDocuments lexicon') record entry
  words : ∀ comment ∈ liveDocuments comments, ∀ id, entryReference? comment = some id →
    (LexiconIndex.ofDocuments lexicon).wordOfId? id = (LexiconIndex.ofDocuments lexicon').wordOfId? id

theorem fetch_store (memory : Memory) (database collection : String) :
    fetch memory.store database collection = .ok (memory.documents database collection) := rfl

theorem verifyEntries_eq {index index' : LexiconIndex} {entries : List Node}
    (h : ∀ entry ∈ entries, ∀ record, verifyEntry index record entry = verifyEntry index' record entry)
    (record : Nat) : verifyEntries index record entries = verifyEntries index' record entries := by
  induction entries generalizing record with
  | nil => rfl
  | cons entry entries ih =>
    rw [List.forall_mem_cons] at h
    unfold verifyEntries
    rw [h.1, ih h.2]

theorem entryReference?_of_target {comment : Json} {id : String} (h : target comment = .ok (.entry id)) :
    entryReference? comment = some id := by
  cases hasTarget_of_target_eq_ok h with
  | entry _ _ _ _ _ hid => exact hid

theorem exists_of_mem_targets {position : Nat} {cs : List Json} {ts : List Target}
    (h : targets position cs = .ok ts) {t : Target} (ht : t ∈ ts) : ∃ c ∈ cs, target c = .ok t := by
  obtain ⟨c, hc, htarget⟩ := exists_of_mem_right (targets_eq_ok_iff.1 h) ht
  exact ⟨c, hc, htarget.target_eq_ok⟩

section Memory

variable {memory memory' : Memory} {database : String} {expected : Node}
  (hlexicon : Interchangeable expected (memory.documents database commentsCollection)
    (memory.documents database lexiconCollection) (memory'.documents database lexiconCollection))

include hlexicon

theorem verifyLexicon_eq {part : Node} (hpart : part ∈ expected.children) (hname : part.name = Node.lexiconName) :
    verifyLexicon memory.store database part = verifyLexicon memory'.store database part := by
  unfold verifyLexicon
  rw [fetch_store, fetch_store]
  dsimp only [bind, Except.bind]
  rw [hlexicon.shared, verifyEntries_eq (hlexicon.entries part hpart hname)]

variable (hcomments : List.Forall₂ SameComment
  (liveDocuments (memory.documents database commentsCollection))
  (liveDocuments (memory'.documents database commentsCollection)))

include hcomments

theorem openComments_inStep :
    InStep (List.Forall₂ SameOpen) (openComments memory.store database) (openComments memory'.store database) := by
  rw [openComments_store, openComments_store]
  dsimp only
  rw [← targets_congr 0 hcomments]
  cases hts : targets 0 (liveDocuments (memory.documents database commentsCollection)) with
  | error d => exact .error d
  | ok ts =>
    have hkey : ∀ t ∈ ts,
        t.key (if ts.any Target.isEntry then .ofDocuments (memory.documents database lexiconCollection) else {}) =
          t.key (if ts.any Target.isEntry then
            .ofDocuments (memory'.documents database lexiconCollection) else {}) := by
      intro t ht
      cases t with
      | word => rfl
      | entry id =>
        obtain ⟨comment, hcomment, htarget⟩ := exists_of_mem_targets hts ht
        have hany : ts.any Target.isEntry = true := List.any_eq_true.2 ⟨_, ht, rfl⟩
        rw [if_pos hany, if_pos hany, Target.key, Target.key,
          hlexicon.words comment hcomment id (entryReference?_of_target htarget)]
    dsimp only [bind, Except.bind]
    rw [mapM_congr hkey]
    exact (InStep.refl (fun _ => rfl) _).bind fun keys keys' hkeys => by
      subst hkeys
      exact .ok (sameOpen_zipWith (hcomments.imp fun _ _ hsame => hsame.toSameThread) keys)

theorem verifyNotes_eq (notes : Node) :
    verifyNotes memory.store database notes = verifyNotes memory'.store database notes := by
  apply InStep.eq
  unfold verifyNotes
  refine (openComments_inStep hlexicon hcomments).bind fun cs cs' hsame => ?_
  dsimp only
  rw [hsame.length_eq, matchNotes_congr 0 _ hsame]
  exact InStep.refl (fun _ => rfl) _

theorem verify_eq : verify memory.store database expected = verify memory'.store database expected := by
  refine forM_congr fun part hpart => ?_
  unfold verifySection
  split
  . next hname => exact verifyLexicon_eq hlexicon hpart hname
  . split
    . exact verifyNotes_eq hlexicon hcomments part
    . rfl

end Memory

end LexiconAudit.Database
