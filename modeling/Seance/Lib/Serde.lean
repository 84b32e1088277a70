import Mathlib.Data.List.Basic
import Seance.Lib.Program

namespace Seance.Lib

/-- A value of a self-describing format: a table is what it has at each key. What a float is, is
left open. -/
inductive Value (F : Type) where
  | string (s : String)
  | integer (n : Int)
  | float (x : F)
  | boolean (b : Bool)
  | array (items : List (Value F))
  | table (fields : String → Option (Value F))

abbrev Fields (F : Type) := String → Option (Value F)

/-- The fields of a struct, in the order they are written in. -/
abbrev Entries (F : Type) := List (String × Value F)

def Entries.fields {F : Type} (entries : Entries F) : Fields F := fun name => entries.lookup name

/-- A writer and a reader of one type: what is written is read back. -/
structure Codec (F α : Type) where
  encode : α → Value F
  decode : Value F → Except String α
  decode_encode : ∀ a, decode (encode a) = .ok a

namespace Codec

variable {F α β : Type}

def string : Codec F String where
  encode := .string
  decode
    | .string s => .ok s
    | _ => .error "invalid type, expected a string"
  decode_encode _ := rfl

def boolean : Codec F Bool where
  encode := .boolean
  decode
    | .boolean b => .ok b
    | _ => .error "invalid type, expected a boolean"
  decode_encode _ := rfl

def integer : Codec F Int where
  encode := .integer
  decode
    | .integer n => .ok n
    | _ => .error "invalid type, expected an integer"
  decode_encode _ := rfl

/-- An integer is read as a float, too. -/
def float (of_int : Int → F) : Codec F F where
  encode := .float
  decode
    | .float x => .ok x
    | .integer n => .ok (of_int n)
    | _ => .error "invalid type, expected a float"
  decode_encode _ := rfl

/-- Values kept in another form, which not all of that form are. -/
def refine (codec : Codec F β) (up : α → β) (down : β → Option α) (error : String)
    (h : ∀ a, down (up a) = some a) : Codec F α where
  encode a := codec.encode (up a)
  decode v := do
    let b ← codec.decode v
    match down b with
    | some a => return a
    | none => .error error
  decode_encode a := by
    rw [codec.decode_encode, except_ok_bind, h]
    rfl

/-- One of some variants, by its name. -/
def variant (all : List α) (name : α → String)
    (h : ∀ a, all.find? (fun other => name other = name a) = some a) : Codec F α :=
  string.refine name (fun s => all.find? fun a => name a = s) "unknown variant" h

theorem mapM_decode (codec : Codec F α) (l : List α) :
    (l.map codec.encode).mapM codec.decode = .ok l := by
  induction l with
  | nil => rfl
  | cons a l ih => rw [List.map_cons, List.mapM_cons, codec.decode_encode, except_ok_bind, ih]; rfl

def list (codec : Codec F α) : Codec F (List α) where
  encode l := .array (l.map codec.encode)
  decode
    | .array items => items.mapM codec.decode
    | _ => .error "invalid type, expected a sequence"
  decode_encode := codec.mapM_decode

/-- A struct, by its fields; fields it does not have are let be. -/
def struct (encode : α → Entries F) (decode : Fields F → Except String α)
    (h : ∀ a, decode (encode a).fields = .ok a) : Codec F α where
  encode a := .table (encode a).fields
  decode
    | .table fields => decode fields
    | _ => .error "invalid type, expected a struct"
  decode_encode := h

/-- One form is tried, and where it cannot be read the other. -/
def untagged {γ : Type} (first : Codec F α) (second : Codec F β) (inl : α → γ) (inr : β → γ)
    (either : γ → α ⊕ β) (heither : ∀ c, (either c).elim inl inr = c)
    (apart : ∀ b, ∃ error, first.decode (second.encode b) = .error error) : Codec F γ where
  encode c := (either c).elim first.encode second.encode
  decode v :=
    match first.decode v with
    | .ok a => .ok (inl a)
    | .error _ =>
      match second.decode v with
      | .ok b => .ok (inr b)
      | .error _ => .error "data did not match any variant"
  decode_encode c := by
    have hc := heither c
    cases he : either c with
    | inl a =>
      rw [he] at hc
      rw [Sum.elim_inl, first.decode_encode]
      exact congrArg Except.ok hc
    | inr b =>
      rw [he] at hc
      obtain ⟨error, herror⟩ := apart b
      rw [Sum.elim_inr, herror, second.decode_encode]
      exact congrArg Except.ok hc

end Codec

section Fields

variable {F α : Type} (codec : Codec F α) (name : String)

def required (fields : Fields F) : Except String α :=
  match fields name with
  | some v => codec.decode v
  | none => .error s!"missing field {name}"

/-- A field with a default. -/
def defaulted (default : α) (fields : Fields F) : Except String α :=
  match fields name with
  | some v => codec.decode v
  | none => .ok default

def optional (fields : Fields F) : Except String (Option α) :=
  match fields name with
  | some v => (codec.decode v).map some
  | none => .ok none

/-- A field that is left out where there is no value. -/
def skip_none (value : Option α) (rest : Entries F) : Entries F :=
  match value with
  | some a => (name, codec.encode a) :: rest
  | none => rest

/-- A field that is left out where the list is empty. -/
def skip_empty (values : List α) (rest : Entries F) : Entries F :=
  if values = [] then rest else (name, codec.list.encode values) :: rest

section Reading

variable {β : Type} {codec name} {c : Codec F β} {other : String} {v : Value F}
variable {fields : Fields F} {rest : Entries F} {a default : α}

theorem fields_cons_self : Entries.fields ((name, v) :: rest) name = some v := List.lookup_cons_self

theorem fields_cons_ne (h : name ≠ other) :
    Entries.fields ((other, v) :: rest) name = rest.fields name := by
  unfold Entries.fields
  rw [List.lookup_cons, beq_false_of_ne h]

theorem fields_skip_none {value : Option β} (h : name ≠ other) :
    (skip_none c other value rest).fields name = rest.fields name := by
  cases value with
  | none => rfl
  | some b => exact fields_cons_ne h

theorem fields_skip_empty {values : List β} (h : name ≠ other) :
    (skip_empty c other values rest).fields name = rest.fields name := by
  unfold skip_empty
  split
  · rfl
  · exact fields_cons_ne h

/-- A field that is written is read back, whether there must be one or there is a default. -/
@[simp] theorem required_entry :
    required codec name (Entries.fields ((name, codec.encode a) :: rest)) = .ok a := by
  rw [required, fields_cons_self]
  exact codec.decode_encode a

@[simp] theorem defaulted_entry :
    defaulted codec name default (Entries.fields ((name, codec.encode a) :: rest)) = .ok a := by
  rw [defaulted, fields_cons_self]
  exact codec.decode_encode a

theorem optional_skip_none {value : Option α} (h : rest.fields name = none) :
    optional codec name (skip_none codec name value rest).fields = .ok value := by
  cases value with
  | none => rw [skip_none, optional, h]
  | some a =>
    rw [skip_none, optional, fields_cons_self]
    dsimp only
    rw [codec.decode_encode]
    rfl

theorem defaulted_skip_empty {values : List α} (h : rest.fields name = none) :
    defaulted codec.list name [] (skip_empty codec name values rest).fields = .ok values := by
  unfold skip_empty
  split
  · rename_i hempty
    rw [defaulted, h, hempty]
  · exact defaulted_entry

@[simp] theorem optional_skip_none_last {value : Option α} :
    optional codec name (skip_none codec name value []).fields = .ok value :=
  optional_skip_none rfl

@[simp] theorem defaulted_skip_empty_last {values : List α} :
    defaulted codec.list name [] (skip_empty codec name values []).fields = .ok values :=
  defaulted_skip_empty rfl

/-- A reader goes by the field of its name alone. -/
theorem required_congr {fields' : Fields F} (h : fields name = fields' name) :
    required codec name fields = required codec name fields' := by
  rw [required, h, required]

theorem defaulted_congr {fields' : Fields F} (h : fields name = fields' name) :
    defaulted codec name default fields = defaulted codec name default fields' := by
  rw [defaulted, h, defaulted]

theorem optional_congr {fields' : Fields F} (h : fields name = fields' name) :
    optional codec name fields = optional codec name fields' := by
  rw [optional, h, optional]

@[simp] theorem required_cons (h : name ≠ other) :
    required codec name (Entries.fields ((other, v) :: rest)) =
      required codec name rest.fields :=
  required_congr (fields_cons_ne h)

@[simp] theorem defaulted_cons (h : name ≠ other) :
    defaulted codec name default (Entries.fields ((other, v) :: rest)) =
      defaulted codec name default rest.fields :=
  defaulted_congr (fields_cons_ne h)

@[simp] theorem optional_cons (h : name ≠ other) :
    optional codec name (Entries.fields ((other, v) :: rest)) =
      optional codec name rest.fields :=
  optional_congr (fields_cons_ne h)

@[simp] theorem defaulted_skip_none {value : Option β} (h : name ≠ other) :
    defaulted codec name default (skip_none c other value rest).fields =
      defaulted codec name default rest.fields :=
  defaulted_congr (fields_skip_none h)

@[simp] theorem defaulted_skip_empty_ne {values : List β} (h : name ≠ other) :
    defaulted codec name default (skip_empty c other values rest).fields =
      defaulted codec name default rest.fields :=
  defaulted_congr (fields_skip_empty h)

end Reading

end Fields

end Seance.Lib
