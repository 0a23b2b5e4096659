import LexiconAudit.Node.Digest
import LexiconAudit.Proofs.Node.Elements
import LexiconAudit.Proofs.Text.Utf8
import LexiconAudit.Proofs.Xml.References
import LexiconAudit.Proofs.Xml.Tags

/-!
This module contains what the written form of a tree on one line tells about the tree: everything, if names hold
nothing that could be taken for markup and no element has both a text and children. So trees with one digest are
equal, or their written forms are a collision of the digest.
-/

namespace LexiconAudit

/-! Written forms that can be told apart. -/

namespace Text

theorem flatMap_cancel {α : Type} {write : α → List Char} {as bs : List α} {rest rest' : List Char}
    (hcancel : ∀ a ∈ as, ∀ b ∈ bs, ∀ cs ds, write a ++ cs = write b ++ ds → a = b ∧ cs = ds)
    (hrest : ∀ b ∈ bs, ∀ cs, write b ++ cs ≠ rest) (hrest' : ∀ a ∈ as, ∀ cs, write a ++ cs ≠ rest')
    (heq : as.flatMap write ++ rest = bs.flatMap write ++ rest') : as = bs ∧ rest = rest' := by
  induction as generalizing bs with
  | nil =>
    cases bs with
    | nil => exact ⟨rfl, heq⟩
    | cons b bs =>
      rw [List.flatMap_cons, List.append_assoc] at heq
      exact absurd heq.symm (hrest b List.mem_cons_self _)
  | cons a as ih =>
    rw [List.flatMap_cons, List.append_assoc] at heq
    rw [List.forall_mem_cons] at hcancel hrest'
    cases bs with
    | nil => exact absurd heq (hrest'.1 _)
    | cons b bs =>
      rw [List.flatMap_cons, List.append_assoc] at heq
      rw [List.forall_mem_cons] at hrest
      obtain ⟨rfl, hmore⟩ := hcancel.1 b List.mem_cons_self _ _ heq
      obtain ⟨rfl, hend⟩ := ih (fun a ha b hb => hcancel.2 a ha b (List.mem_cons_of_mem _ hb)) hrest.2 hrest'.2 hmore
      exact ⟨rfl, hend⟩

/--
What is written of different things differs, and none of it begins with another, whatever follows.
-/
structure IsPrefixCode {α : Type} (write : α → List Char) : Prop where
  cancel {a b : α} {cs ds : List Char} : write a ++ cs = write b ++ ds → a = b ∧ cs = ds
  ne_nil (a : α) : write a ≠ []

theorem IsPrefixCode.flatMap_injective {α : Type} {write : α → List Char} (h : IsPrefixCode write) {as bs : List α}
    (heq : as.flatMap write = bs.flatMap write) : as = bs := by
  have hne (a : α) (cs : List Char) : write a ++ cs ≠ [] := fun hnil => h.ne_nil a (List.append_eq_nil_iff.1 hnil).1
  rw [← List.append_nil (as.flatMap write), ← List.append_nil (bs.flatMap write)] at heq
  exact (flatMap_cancel (fun _ _ _ _ _ _ => h.cancel) (fun b _ => hne b) (fun a _ => hne a) heq).1

theorem append_cancel_of_class {p : Char → Bool} {run run' rest rest' : List Char}
    (hrun : ∀ c ∈ run, p c = true) (hrun' : ∀ c ∈ run', p c = true)
    (hrest : ∀ c, rest.head? = some c → p c = false) (hrest' : ∀ c, rest'.head? = some c → p c = false)
    (h : run ++ rest = run' ++ rest') : run = run' ∧ rest = rest' := by
  constructor
  . rw [← Scanner.takeWhile_append hrun hrest, h, Scanner.takeWhile_append hrun' hrest']
  . rw [← Scanner.dropWhile_append hrun hrest, h, Scanner.dropWhile_append hrun' hrest']

theorem append_cancel_of_not_mem {stop : Char} {run run' rest rest' : List Char} (hrun : stop ∉ run)
    (hrun' : stop ∉ run') (h : run ++ stop :: rest = run' ++ stop :: rest') : run = run' ∧ rest = rest' := by
  have hclass {run : List Char} (hrun : stop ∉ run) : ∀ c ∈ run, decide (c ≠ stop) = true := by
    intro c hc
    rw [decide_eq_true_iff]
    rintro rfl
    exact hrun hc
  have hstop (rest : List Char) : ∀ c, (stop :: rest).head? = some c → decide (c ≠ stop) = false := by simp
  obtain ⟨hsame, hrest⟩ :=
    append_cancel_of_class (hclass hrun) (hclass hrun') (hstop rest) (hstop rest') h
  exact ⟨hsame, (List.cons.inj hrest).2⟩

theorem Utf8.encode_injective {s t : String} (h : encode s = encode t) : s = t := by
  have hdecode := decode?_encode s
  rw [h, decode?_encode] at hdecode
  exact (Option.some.inj hdecode).symm

end Text

open Text (IsPrefixCode append_cancel_of_class append_cancel_of_not_mem)

namespace Sha256

theorem digitChar_injective : ∀ m < 16, ∀ n < 16, Nat.digitChar m = Nat.digitChar n → m = n := by
  decide

theorem mod_pow_of_digits {m n k : Nat} (h : ∀ i < k, (m >>> (4 * i)) % 16 = (n >>> (4 * i)) % 16) :
    m % 16 ^ k = n % 16 ^ k := by
  induction k with
  | zero => rw [Nat.pow_zero, Nat.mod_one, Nat.mod_one]
  | succ k ih =>
    have hdigit := h k (Nat.lt_succ_self k)
    rw [Nat.shiftRight_eq_div_pow, Nat.shiftRight_eq_div_pow, Nat.pow_mul] at hdigit
    change m / 16 ^ k % 16 = n / 16 ^ k % 16 at hdigit
    rw [Nat.mod_pow_succ, Nat.mod_pow_succ, hdigit, ih fun i hi => h i (Nat.lt_succ_of_lt hi)]

theorem isPrefixCode_hexWord : IsPrefixCode hexWord where
  cancel {v w cs ds} h := by
    obtain ⟨hword, hrest⟩ := List.append_inj h rfl
    have hshift : ∀ i < 8, 4 * i ∈ [28, 24, 20, 16, 12, 8, 4, 0] := by decide
    have hmod : v.toNat % 16 ^ 8 = w.toNat % 16 ^ 8 := mod_pow_of_digits fun i hi =>
      digitChar_injective _ (Nat.mod_lt _ (by decide)) _ (Nat.mod_lt _ (by decide))
        (List.map_inj_left.1 hword _ (hshift i hi))
    change v.toNat % 2 ^ 32 = w.toNat % 2 ^ 32 at hmod
    rw [Nat.mod_eq_of_lt v.toNat_lt, Nat.mod_eq_of_lt w.toNat_lt, UInt32.toNat_inj] at hmod
    exact ⟨hmod, hrest⟩
  ne_nil w := nofun

theorem hexDigest_eq_iff {message message' : List UInt8} :
    hexDigest message = hexDigest message' ↔ digest message = digest message' := by
  refine ⟨fun h => ?_, fun h => by rw [hexDigest, h, hexDigest]⟩
  have hwords := isPrefixCode_hexWord.flatMap_injective (String.ofList_injective h)
  cases hv : digest message
  cases hw : digest message'
  rw [hv, hw] at hwords
  simpa [Words.toList] using hwords

def Collide (message message' : List UInt8) : Prop :=
  message ≠ message' ∧ digest message = digest message'

end Sha256

namespace Node

/-! Escapes. -/

theorem escape_cancel {write : Char → List Char} (h : ∀ c, (write c = [c] ∧ c ≠ '&') ∨
    ∃ body, write c = '&' :: body ∧ ∀ rest, Xml.Scan.reference.run (body ++ rest) = .ok (.char c, rest))
    {c d : Char} {cs ds : List Char} (heq : write c ++ cs = write d ++ ds) : c = d ∧ cs = ds := by
  rcases h c with ⟨hc, hamp⟩ | ⟨body, hc, hrun⟩ <;> rcases h d with ⟨hd, hamp'⟩ | ⟨body', hd, hrun'⟩ <;>
    rw [hc, hd] at heq
  . exact List.cons.inj heq
  . exact absurd (List.cons.inj heq).1 hamp
  . exact absurd (List.cons.inj heq).1.symm hamp'
  . -- the reference that both are read as is one to `c` and to `d`
    have hsame := hrun cs
    have hbodies : body ++ cs = body' ++ ds := (List.cons.inj heq).2
    rw [hbodies, hrun' ds] at hsame
    cases hsame
    exact ⟨rfl, rfl⟩

theorem isPrefixCode_escapedChar : IsPrefixCode escapedChar where
  cancel := escape_cancel Xml.escapedChar_cases
  ne_nil c := by
    rcases Xml.escapedChar_cases c with ⟨hc, -⟩ | ⟨_, hc, -⟩ <;> rw [hc] <;> nofun

theorem isPrefixCode_escapedQuotedChar : IsPrefixCode escapedQuotedChar where
  cancel := escape_cancel Xml.escapedQuotedChar_cases
  ne_nil c := by
    rcases Xml.escapedQuotedChar_cases c with ⟨hc, -⟩ | ⟨_, hc, -⟩ <;> rw [hc] <;> nofun

theorem escapedText_injective {text text' : String} (h : escapedText text = escapedText text') : text = text' :=
  String.toList_inj.1 (isPrefixCode_escapedChar.flatMap_injective h)

theorem escapedValue_injective {value value' : String} (h : escapedValue value = escapedValue value') :
    value = value' :=
  String.toList_inj.1 (isPrefixCode_escapedQuotedChar.flatMap_injective h)

theorem not_mem_escapedText (text : String) : '<' ∉ escapedText text := by
  intro h
  obtain ⟨c, -, hc⟩ := List.mem_flatMap.1 h
  rcases mem_escapedChar hc with ⟨-, hlt, -⟩ | hname
  . exact hlt rfl
  . exact absurd hname (by decide)

theorem not_mem_escapedValue (value : String) : '"' ∉ escapedValue value := by
  intro h
  obtain ⟨c, -, hc⟩ := List.mem_flatMap.1 h
  rcases mem_escapedQuotedChar hc with ⟨-, hquote, -⟩ | hname
  . exact hquote rfl
  . exact absurd hname (by decide)

/-! Tags. -/

def isLegible (c : Char) : Bool :=
  !Text.isBlank c && c ∉ "<>/=\"".toList

/--
A name that can be told from what is around it.
-/
structure IsLegible (name : String) : Prop where
  ne_empty : name ≠ ""
  chars : ∀ c ∈ name.toList, isLegible c = true

instance : DecidablePred IsLegible := fun name =>
  have : Decidable (∀ c ∈ name.toList, isLegible c = true) := List.decidableBAll _ _
  decidable_of_iff (name ≠ "" ∧ ∀ c ∈ name.toList, isLegible c = true)
    ⟨fun ⟨ne_empty, chars⟩ => ⟨ne_empty, chars⟩, fun ⟨ne_empty, chars⟩ => ⟨ne_empty, chars⟩⟩

theorem IsLegible.ne_slash {name : String} (h : IsLegible name) (cs ds : List Char) :
    name.toList ++ cs ≠ '/' :: ds := by
  obtain ⟨c, rest, hname⟩ := List.exists_cons_of_ne_nil (mt String.toList_eq_nil_iff.1 h.ne_empty)
  intro heq
  rw [hname] at heq
  have hslash := h.chars c (hname ▸ List.mem_cons_self)
  rw [(List.cons.inj heq).1] at hslash
  cases hslash

/--
The end of a tag that opens an element, or that is the whole element.
-/
inductive EndsTag : List Char → Prop where
  | opened (cs : List Char) : EndsTag ('>' :: cs)
  | closed (cs : List Char) : EndsTag (' ' :: '/' :: cs)

variable {attributes attributes' : List (String × String)} {rest rest' : List Char}

theorem EndsTag.ne_attribute {pair : String × String} (hrest : EndsTag rest) (h : IsLegible pair.1)
    (cs : List Char) : attributeMarkup pair ++ cs ≠ rest := by
  cases hrest with
  | opened => nofun
  | closed ds =>
    intro heq
    simp only [attributeMarkup, List.cons_append, List.append_assoc] at heq
    exact h.ne_slash _ _ (List.cons.inj heq).2

theorem head?_attributesMarkup (hrest : EndsTag rest) :
    ∀ c, (attributesMarkup attributes ++ rest).head? = some c → isLegible c = false := by
  intro c hc
  cases attributes with
  | nil => cases hrest <;> cases hc <;> decide
  | cons pair attributes =>
    cases hc
    decide

theorem attributeMarkup_cancel {pair pair' : String × String} (h : IsLegible pair.1) (h' : IsLegible pair'.1)
    (heq : attributeMarkup pair ++ rest = attributeMarkup pair' ++ rest') : pair = pair' ∧ rest = rest' := by
  obtain ⟨name, value⟩ := pair
  obtain ⟨name', value'⟩ := pair'
  simp only [attributeMarkup, List.cons_append, List.append_assoc, List.nil_append, List.cons.injEq,
    true_and] at heq
  obtain ⟨hname, heq⟩ := append_cancel_of_class h.chars h'.chars (by simp; decide) (by simp; decide) heq
  obtain ⟨hvalue, hrest⟩ := append_cancel_of_not_mem (not_mem_escapedValue value) (not_mem_escapedValue value')
    (List.cons.inj (List.cons.inj heq).2).2
  cases String.toList_inj.1 hname
  cases escapedValue_injective hvalue
  exact ⟨rfl, hrest⟩

theorem attributesMarkup_cancel (h : ∀ pair ∈ attributes, IsLegible pair.1)
    (h' : ∀ pair ∈ attributes', IsLegible pair.1) (hrest : EndsTag rest) (hrest' : EndsTag rest')
    (heq : attributesMarkup attributes ++ rest = attributesMarkup attributes' ++ rest') :
    attributes = attributes' ∧ rest = rest' := by
  exact Text.flatMap_cancel (fun pair hpair pair' hpair' _ _ => attributeMarkup_cancel (h pair hpair) (h' pair' hpair'))
    (fun pair hpair => hrest.ne_attribute (h' pair hpair)) (fun pair hpair => hrest'.ne_attribute (h pair hpair)) heq

/-! Elements. -/

/--
An element whose names are legible and that does not have both a text and children.
-/
structure Legible (node : Node) : Prop where
  name : IsLegible node.name
  attributes : ∀ pair ∈ node.attributes, IsLegible pair.1
  single : node.children ≠ [] → node.text = none

instance : DecidablePred Legible := fun node =>
  decidable_of_iff (IsLegible node.name ∧ (∀ pair ∈ node.attributes, IsLegible pair.1) ∧
      (node.children = [] ∨ node.text = none))
    ⟨fun ⟨name, attributes, single⟩ => ⟨name, attributes, fun hne => single.resolve_left hne⟩,
      fun ⟨name, attributes, single⟩ => ⟨name, attributes, or_iff_not_imp_left.2 single⟩⟩

def remainder (depth : Nat) (node : Node) : List Char :=
  if node.children.isEmpty then
    match node.text with
    | none => " />".toList
    | some text => '>' :: (escapedText text ++ endTag node.name)
  else
    '>' :: (markups .compact (depth + 1) node.children ++ endTag node.name)

theorem markup_compact (depth : Nat) (node : Node) : markup .compact depth node =
    '<' :: (node.name.toList ++ (attributesMarkup node.attributes ++ remainder depth node)) := by
  obtain ⟨name, attributes, text, children⟩ := node
  rw [markup, remainder]
  cases children with
  | nil => cases text <;> simp [leafMarkup, startTag, Layout.indent]
  | cons child children => simp [startTag, Layout.indent, Layout.lineEnd]

theorem endsTag_remainder (depth : Nat) (node : Node) (rest : List Char) :
    EndsTag (remainder depth node ++ rest) := by
  unfold remainder
  split
  . split
    . exact .closed _
    . exact .opened _
  . exact .opened _

variable {node node' : Node} {depth : Nat}

theorem markups_compact (depth : Nat) (nodes : List Node) :
    markups .compact depth nodes = nodes.flatMap (markup .compact depth) := by
  induction nodes with
  | nil => rfl
  | cons node nodes ih => rw [markups, ih, Layout.lineEnd, List.nil_append, List.flatMap_cons]

theorem markup_ne_endTag (h : IsLegible node.name) (name : String) (rest cs : List Char) :
    markup .compact depth node ++ cs ≠ endTag name ++ rest := by
  intro heq
  simp only [markup_compact, endTag, List.cons_append, List.append_assoc] at heq
  exact h.ne_slash _ _ (List.cons.inj heq).2

theorem escapedText_ne_markups {nodes : List Node} (hne : nodes ≠ []) (h : ∀ node ∈ nodes, IsLegible node.name)
    (text name : String) (rest rest' : List Char) :
    escapedText text ++ (endTag name ++ rest) ≠ markups .compact depth nodes ++ rest' := by
  obtain ⟨node, nodes, rfl⟩ := List.exists_cons_of_ne_nil hne
  intro heq
  simp only [markups_compact, List.flatMap_cons, markup_compact, endTag, List.cons_append, List.append_assoc] at heq
  obtain ⟨-, heq⟩ := append_cancel_of_not_mem (not_mem_escapedText text) (show '<' ∉ [] from List.not_mem_nil) heq
  exact (h node List.mem_cons_self).ne_slash _ _ heq.symm

theorem Legible.remainder_cases (h : Legible node) (depth : Nat) :
    (node.text = none ∧ node.children = [] ∧ remainder depth node = " />".toList) ∨
    (∃ text, node.text = some text ∧ node.children = [] ∧
      remainder depth node = '>' :: (escapedText text ++ endTag node.name)) ∨
    (node.text = none ∧ node.children ≠ [] ∧
      remainder depth node = '>' :: (markups .compact (depth + 1) node.children ++ endTag node.name)) := by
  by_cases hchildren : node.children = []
  . cases htext : node.text with
    | none => exact .inl ⟨rfl, hchildren, by simp [remainder, hchildren, htext]⟩
    | some text => exact .inr (.inl ⟨text, rfl, hchildren, by simp [remainder, hchildren, htext]⟩)
  . exact .inr (.inr ⟨h.single hchildren, hchildren, by simp [remainder, hchildren]⟩)

/--
The written form of an element ends before whatever follows it, and no other element is written like it.
-/
def Cancels (node : Node) : Prop :=
  ∀ ⦃depth node' rest rest'⦄, node.Throughout Legible → node'.Throughout Legible →
    markup .compact depth node ++ rest = markup .compact depth node' ++ rest' → node = node' ∧ rest = rest'

theorem markups_cancel {nodes nodes' : List Node} (hcancels : ∀ node ∈ nodes, Cancels node)
    (h : ∀ node ∈ nodes, node.Throughout Legible) (h' : ∀ node ∈ nodes', node.Throughout Legible) {name : String}
    (heq : markups .compact depth nodes ++ (endTag name ++ rest) =
      markups .compact depth nodes' ++ (endTag name ++ rest')) : nodes = nodes' ∧ rest = rest' := by
  rw [markups_compact, markups_compact] at heq
  obtain ⟨hnodes, hend⟩ := Text.flatMap_cancel
    (fun node hnode node' hnode' _ _ => hcancels node hnode (h node hnode) (h' node' hnode'))
    (fun node hnode => markup_ne_endTag (h' node hnode).self.name name rest)
    (fun node hnode => markup_ne_endTag (h node hnode).self.name name rest') heq
  exact ⟨hnodes, List.append_cancel_left hend⟩

theorem remainder_cancel (h : node.Throughout Legible) (h' : node'.Throughout Legible)
    (hcancels : ∀ child ∈ node.children, Cancels child) (hname : node.name = node'.name)
    (heq : remainder depth node ++ rest = remainder depth node' ++ rest') :
    node.text = node'.text ∧ node.children = node'.children ∧ rest = rest' := by
  have hnames {node : Node} (h : node.Throughout Legible) : ∀ child ∈ node.children, IsLegible child.name :=
    fun child hchild => (h.of_mem hchild).self.name
  rcases h.self.remainder_cases depth with ⟨htext, hnil, hremainder⟩ | ⟨text, htext, hnil, hremainder⟩ |
    ⟨htext, hchildren, hremainder⟩ <;>
  rcases h'.self.remainder_cases depth with ⟨htext', hnil', hremainder'⟩ | ⟨text', htext', hnil', hremainder'⟩ |
    ⟨htext', hchildren', hremainder'⟩ <;>
  rw [hremainder, hremainder'] at heq
  . exact ⟨htext.trans htext'.symm, hnil.trans hnil'.symm, List.append_cancel_left heq⟩
  . cases heq
  . cases heq
  . cases heq
  . rw [List.cons_append, List.cons_append, List.append_assoc, List.append_assoc, hname] at heq
    obtain ⟨hescaped, hend⟩ := append_cancel_of_not_mem (not_mem_escapedText text) (not_mem_escapedText text')
      (List.cons.inj heq).2
    rw [htext, htext', escapedText_injective hescaped]
    exact ⟨rfl, hnil.trans hnil'.symm, List.append_cancel_left (List.cons.inj hend).2⟩
  . rw [List.cons_append, List.cons_append, List.append_assoc, List.append_assoc] at heq
    exact absurd (List.cons.inj heq).2 (escapedText_ne_markups hchildren' (hnames h') _ _ _ _)
  . cases heq
  . rw [List.cons_append, List.cons_append, List.append_assoc, List.append_assoc] at heq
    exact absurd (List.cons.inj heq).2.symm (escapedText_ne_markups hchildren (hnames h) _ _ _ _)
  . rw [List.cons_append, List.cons_append, List.append_assoc, List.append_assoc, hname] at heq
    obtain ⟨hsame, hrest⟩ := markups_cancel hcancels (fun _ => h.of_mem) (fun _ => h'.of_mem) (List.cons.inj heq).2
    exact ⟨htext.trans htext'.symm, hsame, hrest⟩

theorem cancels (node : Node) : Cancels node := by
  refine Throughout.induction (P := fun _ => True) (Q := Cancels) (fun node _ hcancels => ?_) node fun _ _ => trivial
  intro depth node' rest rest' h h' heq
  simp only [markup_compact, List.cons_append, List.append_assoc, List.cons.injEq, true_and] at heq
  obtain ⟨hname, heq⟩ := append_cancel_of_class h.self.name.chars h'.self.name.chars
    (head?_attributesMarkup (endsTag_remainder ..)) (head?_attributesMarkup (endsTag_remainder ..)) heq
  obtain ⟨hattributes, heq⟩ := attributesMarkup_cancel h.self.attributes h'.self.attributes
    (endsTag_remainder ..) (endsTag_remainder ..) heq
  rw [String.toList_inj] at hname
  obtain ⟨htext, hchildren, hrest⟩ := remainder_cancel h h' hcancels hname heq
  cases node
  cases node'
  cases hname
  cases hattributes
  cases htext
  cases hchildren
  exact ⟨rfl, hrest⟩

theorem toXml_injective (h : node.Throughout Legible) (h' : node'.Throughout Legible)
    (heq : node.toXml = node'.toXml) : node = node' := by
  have hmarkup : markup .compact 0 node ++ [] = markup .compact 0 node' ++ [] :=
    congrArg (· ++ []) (String.ofList_injective heq)
  exact (cancels node h h' hmarkup).1

/-! The digest. -/

/--
The digest of a tree tells it from all others, unless their written forms are a collision.
-/
theorem digest_identifies (h : node.Throughout Legible) (h' : node'.Throughout Legible) :
    (node.toXml = node'.toXml ↔ node = node') ∧ (node.digest = node'.digest ↔
      node = node' ∨ Sha256.Collide (Text.Utf8.encode node.toXml) (Text.Utf8.encode node'.toXml)) := by
  refine ⟨⟨toXml_injective h h', congrArg toXml⟩, ?_⟩
  unfold digest
  rw [Sha256.hexDigest_eq_iff]
  constructor
  . intro hdigest
    by_cases hbytes : Text.Utf8.encode node.toXml = Text.Utf8.encode node'.toXml
    . exact .inl (toXml_injective h h' (Text.Utf8.encode_injective hbytes))
    . exact .inr ⟨hbytes, hdigest⟩
  . rintro (rfl | ⟨-, hdigest⟩)
    . rfl
    . exact hdigest

def disguised (text : Option String) : Node where
  name := "a"
  attributes := [("k&", "\" /><b k=\"&quot;"), ("k", "")]
  children := [{ name := "b", text := some "</b><b />&lt;" }, { name := "b", text }]

theorem digest_identifies_disguised :
    (disguised none).Throughout Legible ∧ (disguised (some "")).Throughout Legible ∧
      (disguised none).toXml ≠ (disguised (some "")).toXml ∧
        ((disguised none).digest = (disguised (some "")).digest → Sha256.Collide
          (Text.Utf8.encode (disguised none).toXml) (Text.Utf8.encode (disguised (some "")).toXml)) := by
  have hnone : (disguised none).Throughout Legible := by decide +kernel
  have hempty : (disguised (some "")).Throughout Legible := by decide +kernel
  have hne : disguised none ≠ disguised (some "") := by
    intro heq
    cases congrArg (fun node => node.children.map Node.text) heq
  obtain ⟨hxml, hdigest⟩ := digest_identifies hnone hempty
  exact ⟨hnone, hempty, mt hxml.1 hne, fun h => (hdigest.1 h).resolve_left hne⟩

end Node

end LexiconAudit
