import CodeListing.Document.Decoder

/-!
# Values that are read off documents

`Decoder.Reads decoder document a` says that the document has the shape of the decoder and stands
for the value `a`.  It is proved for a document from its parts, in the way in which the decoder is
put together: scalars and lists here, and records field by field (`RecordDecoder.Reads`).  A field
is found if the record has one member with its name (`Holds`), and a field with a default may have
none.

So a type whose documents are read back needs one such proof for each of its fields and no look at
how documents are checked.  What a decoder can give at all (`Decoder.Gives`) is said in the same
way.
-/

set_option autoImplicit false

namespace CodeListing.Document

variable {α β : Type}

/-! ## Fields of a record -/

/-- What the members hold under this name: one document, or none. -/
def Holds (members : List (String × Document)) (field : String) (found : Option Document) : Prop :=
  members.filter (·.1 == field) = memberOfOption field id found

/-- A value that is absent makes no member. -/
@[simp] theorem memberOfOption_none (key : String) (encode : α → Document) :
    memberOfOption key encode none = [] := rfl

/-- A value that is present makes one member. -/
@[simp] theorem memberOfOption_some (key : String) (encode : α → Document) (a : α) :
    memberOfOption key encode (some a) = [(key, encode a)] := rfl

/-- An optional member is found under its own name only. -/
@[simp] theorem filter_memberOfOption (key field : String) (encode : α → Document)
    (value : Option α) :
    (memberOfOption key encode value).filter (·.1 == field) =
      if key = field then memberOfOption field id (value.map encode) else [] := by
  cases value with
  | none => simp [memberOfOption]
  | some a =>
    by_cases h : key = field
    · simp [memberOfOption, h]
    · simp [memberOfOption, h]

namespace Holds

variable {members : List (String × Document)} {field : String} {found : Option Document}

/-- What the members hold under a name is what a search for the name finds. -/
theorem lookup (h : Holds members field found) : members.lookup field = found := by
  have hfilter : members.lookup field = (members.filter (·.1 == field)).lookup field := by
    clear h
    induction members with
    | nil => rfl
    | cons member rest ih =>
      obtain ⟨key, document⟩ := member
      by_cases hkey : key = field
      · simp [hkey]
      · have hne : (field == key) = false := beq_eq_false_iff_ne.2 (Ne.symm hkey)
        simpa [List.lookup_cons, hne, hkey] using ih
  rw [hfilter, show members.filter (·.1 == field) = memberOfOption field id found from h]
  cases found with
  | none => rfl
  | some document => simp [memberOfOption]

/-- Every member with the name is the one that is held. -/
theorem unique (h : Holds members field found) {member : String × Document}
    (hmember : member ∈ members) (hfield : member.1 = field) : found = some member.2 := by
  have hmem : member ∈ memberOfOption field id found := by
    rw [← show members.filter (·.1 == field) = memberOfOption field id found from h]
    exact List.mem_filter.2 ⟨hmember, beq_iff_eq.2 hfield⟩
  cases found with
  | none => cases hmem
  | some document => rw [List.mem_singleton.1 hmem, id]

/-- What the members hold under a name is what the object has there. -/
theorem get?_object (h : Holds members field found) :
    (Document.object members).get? field = found := h.lookup

/-- A name under which something is held is the name of a member. -/
theorem mem {document : Document} (h : Holds members field (some document)) :
    field ∈ members.map Prod.fst := by
  obtain ⟨before, after, hmembers, -⟩ := List.lookup_eq_some_iff.1 h.lookup
  simp [hmembers]

end Holds

namespace Layout

/-- A member that passes the checks of two layouts passes that of both together. -/
theorem checkMember_append {setAside : Bool} {first second : Layout} {key : String}
    {value : Document} (hfirst : first.checkMember setAside key value = .ok ())
    (hsecond : second.checkMember setAside key value = .ok ()) :
    (first.append second).checkMember setAside key value = .ok () := by
  fun_induction Layout.append first second with
  | case1 => exact hsecond
  | case2 second field needed shape rest ih =>
    simp only [checkMember] at hfirst ⊢
    split
    · rename_i hkey
      rw [if_pos hkey] at hfirst
      exact hfirst
    · rename_i hkey
      rw [if_neg hkey] at hfirst
      exact ih hfirst hsecond

/-- If no field of two layouts is missing, none of both together is. -/
theorem missing?_append {given : List String} {first second : Layout}
    (hfirst : first.missing? given = none) (hsecond : second.missing? given = none) :
    (first.append second).missing? given = none := by
  fun_induction Layout.append first second with
  | case1 => exact hsecond
  | case2 second field needed shape rest ih =>
    simp only [missing?] at hfirst ⊢
    split at hfirst
    · cases hfirst
    · rename_i hfield
      rw [if_neg hfield]
      exact ih hfirst hsecond

end Layout

/-- The decoder reads this value off the document, whether or not the document was set aside before
its shape was known. -/
structure Decoder.Reads (decoder : Decoder α) (document : Document) (a : α) : Prop where
  check : ∀ setAside, decoder.shape.check setAside document = .ok ()
  decode : decoder.decode document = .ok a

/-- A decoder that reads a value off a document gives it. -/
theorem Decoder.Reads.read_eq {decoder : Decoder α} {document : Document} {a : α}
    (h : decoder.Reads document a) : decoder.read document = .ok a := by
  unfold Decoder.read
  rw [h.check, h.decode]
  rfl

/-- The fields of a record are read off the members as this value. -/
structure RecordDecoder.Reads (fields : RecordDecoder α) (members : List (String × Document))
    (a : α) : Prop where
  check : ∀ setAside, ∀ member ∈ members,
    fields.layout.checkMember setAside member.1 member.2 = .ok ()
  given : fields.layout.missing? (members.map Prod.fst) = none
  decode : fields.decode members = .ok a

namespace RecordDecoder.Reads

variable {members : List (String × Document)}

/-- If a function and its argument are read off the members, so is the result. -/
theorem seq {first : RecordDecoder (α → β)} {second : RecordDecoder α} {f : α → β} {a : α}
    (hfirst : first.Reads members f) (hsecond : second.Reads members a) :
    (first <*> second).Reads members (f a) where
  check setAside member hmember :=
    Layout.checkMember_append (hfirst.check setAside member hmember)
      (hsecond.check setAside member hmember)
  given := Layout.missing?_append hfirst.given hsecond.given
  decode := by
    show (do
      let f ← first.decode members
      let a ← second.decode members
      return f a) = Except.ok (f a)
    rw [hfirst.decode, hsecond.decode]
    rfl

/-- If a value is read off the members, so is its image. -/
theorem map {f : α → β} {fields : RecordDecoder α} {a : α} (h : fields.Reads members a) :
    (f <$> fields).Reads members (f a) := by
  have hpure : (RecordDecoder.ofValue f).Reads members f :=
    ⟨fun _ _ _ => rfl, rfl, rfl⟩
  exact hpure.seq h

variable {field : String} {decoder : Decoder α} {document : Document} {a : α}

/-- A layout with one field checks the members with its name only. -/
theorem check_single {needed setAside : Bool} {found : Option Document}
    (hcheck : ∀ document, found = some document →
      decoder.shape.check setAside document = .ok ()) (hholds : Holds members field found) :
    ∀ member ∈ members,
      (Layout.cons field needed decoder.shape .nil).checkMember setAside member.1 member.2 =
        .ok () := by
  intro member hmember
  simp only [Layout.checkMember]
  split
  · rename_i hfield
    exact hcheck _ (hholds.unique hmember (eq_of_beq hfield).symm)
  · rfl

/-- A field that is needed is read off the document that is held under its name. -/
theorem required (hholds : Holds members field (some document)) (h : decoder.Reads document a) :
    (RecordDecoder.required field decoder).Reads members a where
  check setAside := by
    refine check_single ?_ hholds
    rintro _ ⟨⟩
    exact h.check setAside
  given := by
    have hmem := hholds.mem
    simp [RecordDecoder.required, Layout.missing?, hmem]
  decode := by
    simp only [RecordDecoder.required, hholds.lookup]
    exact h.decode

/-- A field with a default is read off the document that is held under its name. -/
theorem withDefault {default : α} (hholds : Holds members field (some document))
    (h : decoder.Reads document a) :
    (RecordDecoder.withDefault field default decoder).Reads members a where
  check setAside := by
    refine check_single ?_ hholds
    rintro _ ⟨⟩
    exact h.check setAside
  given := rfl
  decode := by
    simp only [RecordDecoder.withDefault, hholds.lookup]
    exact h.decode

/-- A field with a default is this default if nothing is held under its name. -/
theorem default_of_holds_none {default : α} (hholds : Holds members field none) :
    (RecordDecoder.withDefault field default decoder).Reads members default where
  check setAside := by
    refine check_single ?_ hholds
    rintro _ ⟨⟩
  given := rfl
  decode := by
    simp only [RecordDecoder.withDefault, hholds.lookup]

end RecordDecoder.Reads

/-! ## Decoders -/

/-- Items that all pass a check pass it one after the other. -/
theorem forM_eq_ok {items : List α} {check : α → Decoded Unit}
    (h : ∀ item ∈ items, check item = .ok ()) : items.forM check = .ok () := by
  induction items with
  | nil => rfl
  | cons item rest ih =>
    have hitem := h item List.mem_cons_self
    have hrest := ih fun other hother => h other (List.mem_cons_of_mem _ hother)
    show (check item >>= fun _ => rest.forM check) = .ok ()
    rw [hitem]
    exact hrest

namespace Decoder.Reads

/-- A text is read off its document. -/
theorem text (s : String) : Decoder.text.Reads (.string s) s :=
  ⟨fun _ => rfl, rfl⟩

/-- A truth value is read off its document. -/
theorem flag (b : Bool) : Decoder.flag.Reads (.bool b) b :=
  ⟨fun _ => rfl, rfl⟩

/-- A value that is given as a text is read off the text that parses to it. -/
theorem ofText {ε : Type} {parse : String → Except ε α} {message : ε → String} {s : String} {a : α}
    (h : parse s = .ok a) : (Decoder.ofText parse message).Reads (.string s) a := by
  constructor
  · intro setAside
    simp [Decoder.ofText, Shape.check, text?, h, bind, Except.bind]
  · simp [Decoder.ofText, text?, h, bind, Except.bind]

/-- A number below the limit is found to be a number of so many bits. -/
theorem unsigned?_ofNat {bits n : Nat} (h : n < 1 <<< bits) :
    (Document.ofNat n).unsigned? bits = .ok n := by
  have hrange : 0 ≤ (n : Int) ∧ (n : Int) < Int.ofNat (1 <<< bits) :=
    ⟨Int.natCast_nonneg n, Int.ofNat_lt.2 h⟩
  simp only [Document.ofNat, unsigned?, if_pos hrange, Int.toNat_natCast]

/-- A number below the limit is read off its document. -/
theorem unsigned {bits n : Nat} (h : n < 1 <<< bits) :
    (Decoder.unsigned bits).Reads (.ofNat n) n := by
  have hread := unsigned?_ofNat h
  constructor
  · intro setAside
    simp [Decoder.unsigned, Shape.check, hread, Except.map]
  · exact hread

/-- If a value is read off a document, so is its image. -/
theorem map {f : α → β} {decoder : Decoder α} {document : Document} {a : α}
    (h : decoder.Reads document a) : (decoder.map f).Reads document (f a) := by
  refine ⟨h.check, ?_⟩
  simp only [Decoder.map, h.decode]
  rfl

/-- An address is read off its document. -/
theorem address (a : UInt64) : Decoder.address.Reads (.ofAddress a) a := by
  have hbound : a.toNat < 1 <<< 64 := a.toNat_lt
  have h := (unsigned hbound).map (f := fun n => UInt64.ofNat n)
  rw [UInt64.ofNat_toNat] at h
  exact h

/-- A word is read off its document. -/
theorem word (n : UInt32) : Decoder.word.Reads (.ofWord n) n := by
  have hbound : n.toNat < 1 <<< 32 := n.toNat_lt
  have h := (unsigned hbound).map (f := fun n => UInt32.ofNat n)
  rw [UInt32.ofNat_toNat] at h
  exact h

/-- A byte is read off its document. -/
theorem byte (b : UInt8) : Decoder.byte.Reads (.ofNat b.toNat) b := by
  have hbound : b.toNat < 1 <<< 8 := b.toNat_lt
  have h := (unsigned hbound).map (f := fun n => UInt8.ofNat n)
  rw [UInt8.ofNat_toNat] at h
  exact h

/-- A value is read off the name that stands for it. -/
theorem variant {variants : List (String × α)} {name : String} {a : α}
    (h : variants.lookup name = some a) : (Decoder.variant variants).Reads (.string name) a := by
  have hnames : ((variants.map Prod.fst).map fun name => (name, ())).lookup name = some () := by
    obtain ⟨before, after, rfl, hbefore⟩ := List.lookup_eq_some_iff.1 h
    rw [List.lookup_eq_some_iff]
    refine ⟨(before.map Prod.fst).map fun name => (name, ()),
      (after.map Prod.fst).map fun name => (name, ()), by simp, ?_⟩
    intro pair hpair
    simp only [List.map_map, List.mem_map, Function.comp_apply] at hpair
    obtain ⟨original, horiginal, rfl⟩ := hpair
    exact hbefore original horiginal
  constructor
  · intro setAside
    simp only [Decoder.variant, Shape.check, variant?, named?, hnames]
    rfl
  · simp [Decoder.variant, variant?, named?, h]

/-- A value that is present is read off its document, unless that is null. -/
theorem optional {decoder : Decoder α} {document : Document} {a : α}
    (h : decoder.Reads document a) (hnull : document ≠ .null) :
    decoder.optional.Reads document (some a) := by
  have hcheck := h.check
  have hdecode := h.decode
  cases document with
  | null => exact absurd rfl hnull
  | _ =>
    refine ⟨fun setAside => ?_, ?_⟩
    · simp [Decoder.optional, Shape.check, hcheck]
    · simp [Decoder.optional, hdecode, Except.map]

/-- A list is read off its document if every item is read off its own. -/
theorem list {decoder : Decoder α} {encode : α → Document}
    (h : ∀ a, decoder.Reads (encode a) a) (items : List α) :
    decoder.list.Reads (.ofList encode items) items := by
  constructor
  · intro setAside
    apply forM_eq_ok
    intro item hitem
    obtain ⟨a, -, rfl⟩ := List.mem_map.1 hitem
    exact (h a).check setAside
  · show (items.map encode).mapM decoder.decode = .ok items
    induction items with
    | nil => rfl
    | cons a rest ih =>
      rw [List.map_cons, List.mapM_cons, (h a).decode, ih]
      rfl

/-- A record is read off an object if its fields are read off the members. -/
theorem record {name : String} {fields : RecordDecoder α} {members : List (String × Document)}
    {a : α} (h : fields.Reads members a) :
    (Decoder.record name fields).Reads (.object members) a := by
  refine ⟨fun setAside => ?_, h.decode⟩
  have hmembers := forM_eq_ok (h.check setAside)
  simp only [Decoder.record, Shape.check, h.given]
  exact congrArg (· >>= fun _ => Except.ok ()) hmembers

end Decoder.Reads

/-- A field that may be left out is read off the member that was written for it. -/
theorem RecordDecoder.Reads.optional {field : String} {decoder : Decoder α}
    {encode : α → Document} {members : List (String × Document)} {value : Option α}
    (hholds : Holds members field (value.map encode)) (h : ∀ a, decoder.Reads (encode a) a)
    (hnull : ∀ a, encode a ≠ .null) :
    (RecordDecoder.optional field decoder).Reads members value := by
  cases value with
  | none => exact default_of_holds_none hholds
  | some a => exact withDefault hholds ((h a).optional (hnull a))

/-! ## What can be read -/

/-- Every value that the decoder gives has the property. -/
def Decoder.Gives (decoder : Decoder α) (P : α → Prop) : Prop :=
  ∀ document a, decoder.decode document = .ok a → P a

/-- Every record that the decoder gives has the property. -/
def RecordDecoder.Gives (fields : RecordDecoder α) (P : α → Prop) : Prop :=
  ∀ members a, fields.decode members = .ok a → P a

/-- What is read with a decoder has the property of all that the decoder gives. -/
theorem Decoder.Gives.of_read {decoder : Decoder α} {P : α → Prop} (h : decoder.Gives P)
    {document : Document} {a : α} (hread : decoder.read document = .ok a) : P a := by
  unfold Decoder.read at hread
  cases hcheck : decoder.shape.check false document with
  | error e =>
    rw [hcheck] at hread
    cases hread
  | ok _ =>
    rw [hcheck] at hread
    exact h document a hread

/-- What is read off a text is what some text parses to. -/
theorem Decoder.Gives.ofText {ε : Type} (parse : String → Except ε α) (message : ε → String) :
    (Decoder.ofText parse message).Gives fun a => ∃ text, parse text = .ok a := by
  intro document a h
  cases document with
  | string text =>
    simp only [Decoder.ofText, text?, bind, Except.bind] at h
    split at h
    · rename_i hparse
      cases h
      exact ⟨text, hparse⟩
    · cases h
  | _ => cases h

/-- A record has the property of all that the decoder of its fields gives. -/
theorem Decoder.Gives.record {name : String} {fields : RecordDecoder α} {P : α → Prop}
    (h : fields.Gives P) : (Decoder.record name fields).Gives P := by
  intro document a hdecode
  cases document with
  | object members => exact h _ a hdecode
  | array values => exact h _ a hdecode
  | _ => cases hdecode

namespace RecordDecoder.Gives

/-- The value of a field that is needed has the property of all that its decoder gives. -/
theorem required {field : String} {decoder : Decoder α} {P : α → Prop} (h : decoder.Gives P) :
    (RecordDecoder.required field decoder).Gives P := by
  intro members a hdecode
  simp only [RecordDecoder.required] at hdecode
  split at hdecode
  · exact h _ a hdecode
  · cases hdecode

/-- What holds of a record whatever its last field is holds by the fields before. -/
theorem seq {first : RecordDecoder (α → β)} {second : RecordDecoder α} {P : β → Prop}
    (h : first.Gives fun f => ∀ a, P (f a)) : (first <*> second).Gives P := by
  intro members b hdecode
  have hseq : (do
      let f ← first.decode members
      let a ← second.decode members
      return f a) = Except.ok b := hdecode
  cases hfirst : first.decode members with
  | error e =>
    rw [hfirst] at hseq
    cases hseq
  | ok f =>
    cases hsecond : second.decode members with
    | error e =>
      rw [hfirst, hsecond] at hseq
      cases hseq
    | ok a =>
      rw [hfirst, hsecond] at hseq
      cases hseq
      exact h members f hfirst a

/-- The image of what is read has the property if every value that the decoder gives has such an
image. -/
theorem map {f : α → β} {fields : RecordDecoder α} {P : β → Prop}
    (h : fields.Gives fun a => P (f a)) : (f <$> fields).Gives P := by
  intro members b hdecode
  have hmap : (do
      let a ← fields.decode members
      return f a) = Except.ok b := hdecode
  cases hfields : fields.decode members with
  | error e =>
    rw [hfields] at hmap
    cases hmap
  | ok a =>
    rw [hfields] at hmap
    cases hmap
    exact h members a hfields

end RecordDecoder.Gives

end CodeListing.Document
