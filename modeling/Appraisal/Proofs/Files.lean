import Appraisal.Files.Tree
/-!
# Looking at files

Actions on files one after the other, and files that stay as they are when they are looked at (`StableFiles`). What a
look at a tree of files finds depends on the place its path leads to, and a path that is not refused leads there part by
part (`FileTree.locate_plain`).
-/

namespace Appraisal

/-! ## Actions on files -/

/-- One action on files after another. -/
theorem Files.run_bind {σ α β : Type} (x : StateM σ α) (f : α → StateM σ β) (t : σ) :
    (x >>= f).run t = (f (x.run t).1).run (x.run t).2 :=
  rfl

/-- Files that stay as they are when they are looked at. -/
class StableFiles (σ : Type) [Files (StateM σ)] : Prop where
  present_run (path : String) (t : σ) : ((Files.present path : StateM σ _).run t).2 = t
  read_run (path : String) (t : σ) : ((Files.read path : StateM σ _).run t).2 = t

instance : StableFiles FileTree :=
  ⟨fun _ _ => rfl, fun _ _ => rfl⟩

namespace Files
variable {σ : Type} [Files (StateM σ)]

/-- Whether a file or a directory stands at a path. -/
def stands (t : σ) (path : String) : Bool :=
  ((Files.present path : StateM σ _).run t).1

/-- What a read of the file at a path gives. -/
def textAt (t : σ) (path : String) : Except FileError String :=
  ((Files.read path : StateM σ _).run t).1

section Stable
variable [StableFiles σ] (t : σ) (path : String)

theorem run_present : (Files.present path : StateM σ _).run t = (stands t path, t) :=
  Prod.ext rfl (StableFiles.present_run path t)

theorem run_read : (Files.read path : StateM σ _).run t = (textAt t path, t) :=
  Prod.ext rfl (StableFiles.read_run path t)

end Stable

end Files

namespace FileTree

/-! ## Where paths lead -/

/-- A path that is not refused before its first step. -/
def Plain (path : String) : Prop :=
  Char.ofNat 0 ∉ path.toList ∧ path ≠ "" ∧ path.utf8ByteSize < pathBytesBound

instance (path : String) : Decidable (Plain path) :=
  inferInstanceAs (Decidable (_ ∧ _ ∧ _))

theorem Plain.refusal?_eq_none {path : String} (h : Plain path) : refusal? path = none := by
  obtain ⟨hnul, hne, hlen⟩ := h
  have hempty : path.isEmpty = false := by rwa [Bool.eq_false_iff, ne_eq, String.isEmpty_iff]
  rw [refusal?, String.contains_char_eq, decide_eq_false hnul, hempty]
  simp [hlen]

/-- A plain path is walked part by part. -/
theorem locate_plain {path : String} (h : Plain path) (t : FileTree) :
    t.locate path = (Path.parts path).foldlM t.stepTo (if Path.isAbsolute path then [] else t.workingDirectory) := by
  rw [locate, h.refusal?_eq_none]

/-- A part of a path that leads down from a directory. -/
def IsName (name : String) : Prop :=
  Char.ofNat 0 ∉ name.toList ∧ '/' ∉ name.toList ∧ name ∉ ["", ".", ".."] ∧ name.utf8ByteSize ≤ maxPartBytes

instance (name : String) : Decidable (IsName name) :=
  inferInstanceAs (Decidable (_ ∧ _ ∧ _ ∧ _))

theorem IsName.plain {name : String} (h : IsName name) : Plain name := by
  obtain ⟨hnul, -, hspecial, hlen⟩ := h
  have hne : name ≠ "" := fun he => hspecial (he ▸ List.mem_cons_self)
  exact ⟨hnul, hne, Nat.lt_of_le_of_lt hlen (by decide)⟩

theorem partsFrom_of_not_mem {cs : List Char} (h : '/' ∉ cs) (done : List Char) :
    Path.partsFrom done cs = [done.reverse ++ cs] := by
  induction cs generalizing done with
  | nil => simp [Path.partsFrom]
  | cons c cs ih =>
    rw [List.mem_cons, not_or] at h
    rw [Path.partsFrom, if_neg (Ne.symm h.1), ih h.2, List.reverse_cons, List.append_assoc]
    rfl

theorem IsName.parts {name : String} (h : IsName name) : Path.parts name = [name] := by
  rw [Path.parts, partsFrom_of_not_mem h.2.1]
  simp

/-- A walk goes down from a directory by the names on its way. -/
theorem walk_name {t : FileTree} {place : List String} {name : String}
    (hdirectory : t.entryAt? place = some .directory) (h : IsName name) (rest : List String) :
    (name :: rest).foldlM t.stepTo place = rest.foldlM t.stepTo (place ++ [name]) := by
  obtain ⟨-, -, hspecial, hlen⟩ := h
  simp only [List.mem_cons, List.not_mem_nil, or_false, not_or] at hspecial
  obtain ⟨hempty, hdot, hup⟩ := hspecial
  have hstep : t.stepTo place name = .ok (place ++ [name]) := by
    simp [stepTo, hdirectory, Path.isStill, hempty, hdot, hup, Nat.not_lt.2 hlen]
  rw [List.foldlM_cons, hstep]
  rfl

/-- A name leads to its place in the working directory. -/
theorem locate_name {t : FileTree} {name : String} (hdirectory : t.entryAt? t.workingDirectory = some .directory)
    (h : IsName name) : t.locate name = .ok (t.workingDirectory ++ [name]) := by
  have hrelative : Path.isAbsolute name = false :=
    decide_eq_false fun hhead => h.2.1 (List.mem_of_mem_head? hhead)
  rw [locate_plain h.plain, h.parts, hrelative, if_neg Bool.false_ne_true, walk_name hdirectory h]
  rfl

/-! ## What is there -/

section Look
variable {t : FileTree} {path : String} {place : List String}

theorem entry_of_locate (h : t.locate path = .ok place) :
    t.entry path = (t.entryAt? place).elim (.error .notFound) .ok := by
  simp only [entry, h, bind, Except.bind]
  cases t.entryAt? place <;> rfl

/-- Something stands at a path if it leads to a place that is not empty. -/
theorem stands_of_locate (h : t.locate path = .ok place) : Files.stands t path = (t.entryAt? place).isSome := by
  change t.present path = _
  rw [present, entry_of_locate h]
  cases t.entryAt? place <;> rfl

/-- What a read finds at the place that its path leads to. -/
theorem textAt_of_locate (h : t.locate path = .ok place) : Files.textAt t path =
    match t.entryAt? place with
    | none => .error .notFound
    | some .directory => .error .isDirectory
    | some .binary => .error .notText
    | some (.text content) => .ok content := by
  change t.read path = _
  rw [read, entry_of_locate h]
  rcases t.entryAt? place with _ | _ | _ | _ <;> rfl

/-- A file that can be read is there. -/
theorem stands_of_textAt {text : String} (h : Files.textAt t path = .ok text) : Files.stands t path = true := by
  change t.read path = .ok text at h
  change t.present path = true
  unfold read at h
  unfold present
  cases he : t.entry path with
  | error e =>
    rw [he] at h
    cases h
  | ok entry => rfl

end Look

/-- A text goes to the place that there is for it; where there is none, nothing is written. -/
theorem run_write (t : FileTree) (path content : String) :
    (Files.write path content : StateM FileTree _).run t =
      match t.target path with
      | .ok place => (.ok (), t.set place (.text content))
      | .error e => (.error e, t) := by
  simp only [Files.write]
  rw [Files.run_bind, show (get : StateM FileTree FileTree).run t = (t, t) from rfl]
  simp only [write]
  cases t.target path <;> rfl

end FileTree

end Appraisal
