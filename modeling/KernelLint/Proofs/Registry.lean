import KernelLint.Registry

/-!
# What the registry holds

Subscribers may react to what they are told. When none of them takes a text away, a text that is
flagged stays. When none of them does anything, flagging adds exactly the flagged text, and when
declarations are flagged one after another, the new ones among them are added and who is subscribed
is told about each of these once. A look at a revision keeps the texts of that revision and drops
those of any other.
-/

namespace KernelLint.Registry

variable {r : Registry} {owner : Owner} {text flagged : String} {revision : Nat}

theorem contains_iff : r.contains text = true ↔ text ∈ r.texts := by
  simp [contains]

/-! ## Subscribers that react -/

/-- No subscriber takes a text away. -/
def Keeps (r : Registry) : Prop :=
  ∀ number owner state, state.texts ⊆ (r.react number owner state).texts

/-- No subscriber calls back. -/
def Passive (r : Registry) : Prop :=
  ∀ number owner state, r.react number owner state = state

theorem Passive.keeps (h : r.Passive) : r.Keeps := by
  intro number owner state
  rw [h]
  exact List.Subset.refl _

theorem react_tells (numbers : List Nat) (r : Registry) (owner : Owner) :
    (numbers.foldl (tell · owner ·) r).react = r.react := by
  induction numbers generalizing r with
  | nil => rfl
  | cons number rest ih => exact ih (r.tell owner number)

@[simp] theorem react_announce (r : Registry) (owner : Owner) :
    (r.announce owner).react = r.react :=
  react_tells r.active r owner

@[simp] theorem react_add (r : Registry) (owner : Owner) (text : String) :
    (r.add owner text).2.react = r.react := by
  unfold add
  split
  · rfl
  · exact react_announce ..

@[simp] theorem react_sync (r : Registry) (revision : Nat) :
    (r.sync revision).2.react = r.react := by
  unfold sync
  split <;> rfl

theorem Keeps.of_react {r' : Registry} (h : r.Keeps) (hreact : r'.react = r.react) : r'.Keeps := by
  rwa [Keeps, hreact]

theorem Passive.of_react {r' : Registry} (h : r.Passive) (hreact : r'.react = r.react) :
    r'.Passive := by
  rwa [Passive, hreact]

/-! ### Texts that stay -/

theorem Keeps.texts_tells (h : r.Keeps) (numbers : List Nat) (owner : Owner) :
    r.texts ⊆ (numbers.foldl (tell · owner ·) r).texts := by
  induction numbers generalizing r with
  | nil => exact List.Subset.refl _
  | cons number rest ih =>
    have hfirst : r.texts ⊆ (r.tell owner number).texts :=
      h number owner (r.toRegistryState.hear owner number)
    exact List.Subset.trans hfirst (ih (r := r.tell owner number) h)

theorem Keeps.texts_add (h : r.Keeps) (owner : Owner) (text : String) :
    r.texts ⊆ (r.add owner text).2.texts := by
  unfold add
  split
  · exact List.Subset.refl _
  · have hmore : r.texts ⊆ r.texts ++ [text] := List.subset_append_left _ _
    exact List.Subset.trans hmore
      (Keeps.texts_tells (r := { r with texts := r.texts ++ [text] }) h _ owner)

theorem Keeps.mem_texts_add (h : r.Keeps) (owner : Owner) (text : String) :
    text ∈ (r.add owner text).2.texts := by
  unfold add
  split
  · rename_i hknown
    exact contains_iff.mp hknown
  · refine Keeps.texts_tells (r := { r with texts := r.texts ++ [text] }) h _ owner ?_
    simp

/-! ### Subscribers that only listen -/

theorem Passive.tell_eq (h : r.Passive) (owner : Owner) (number : Nat) :
    r.tell owner number = { r with toRegistryState := r.toRegistryState.hear owner number } := by
  rw [tell, h]

theorem Passive.tells (h : r.Passive) (numbers : List Nat) (owner : Owner) :
    (numbers.foldl (tell · owner ·) r).texts = r.texts ∧
      (numbers.foldl (tell · owner ·) r).revision = r.revision := by
  induction numbers generalizing r with
  | nil => exact ⟨rfl, rfl⟩
  | cons number rest ih =>
    have hsame : (r.tell owner number).texts = r.texts ∧
        (r.tell owner number).revision = r.revision := by
      rw [h.tell_eq]
      exact ⟨rfl, rfl⟩
    obtain ⟨htexts, hrevision⟩ := ih (r := r.tell owner number) h
    exact ⟨htexts.trans hsame.1, hrevision.trans hsame.2⟩

theorem Passive.texts_announce (h : r.Passive) (owner : Owner) :
    (r.announce owner).texts = r.texts :=
  (h.tells _ owner).1

theorem Passive.revision_announce (h : r.Passive) (owner : Owner) :
    (r.announce owner).revision = r.revision :=
  (h.tells _ owner).2

theorem Passive.texts_add_of_not_mem (h : r.Passive) (hnew : text ∉ r.texts) (owner : Owner) :
    (r.add owner text).2.texts = r.texts ++ [text] := by
  have hunknown : r.contains text = false := by simpa [contains] using hnew
  rw [add, hunknown]
  exact Passive.texts_announce (r := { r with texts := r.texts ++ [text] }) h owner

theorem add_of_mem (h : text ∈ r.texts) (owner : Owner) : (r.add owner text).2 = r := by
  simp [add, contains, h]

theorem Passive.mem_texts_add (h : r.Passive) :
    text ∈ (r.add owner flagged).2.texts ↔ text ∈ r.texts ∨ text = flagged := by
  by_cases hknown : flagged ∈ r.texts
  · rw [add_of_mem hknown]
    constructor
    · exact .inl
    · rintro (hold | rfl)
      · exact hold
      · exact hknown
  · simp [h.texts_add_of_not_mem hknown]

theorem Passive.revision_add (h : r.Passive) (owner : Owner) (text : String) :
    (r.add owner text).2.revision = r.revision := by
  unfold add
  split
  · rfl
  · exact Passive.revision_announce (r := { r with texts := r.texts ++ [text] }) h owner

/-! ## Looking at a revision -/

@[simp] theorem revision_sync (r : Registry) (revision : Nat) :
    (r.sync revision).2.revision = revision := by
  unfold sync
  split
  · assumption
  · rfl

theorem sync_of_eq (h : r.revision = revision) : (r.sync revision).2 = r := by
  simp [sync, h]

theorem texts_sync_of_ne (h : r.revision ≠ revision) : (r.sync revision).2.texts = [] := by
  simp [sync, h, clear]

theorem texts_sync_of_empty (h : r.texts = []) (revision : Nat) :
    (r.sync revision).2.texts = [] := by
  unfold sync
  split
  · exact h
  · rfl

@[simp] theorem mailboxes_sync (r : Registry) (revision : Nat) :
    (r.sync revision).2.mailboxes = r.mailboxes := by
  unfold sync
  split <;> rfl

/-! ## One declaration after another -/

/-- Flag declarations, each with its owner. -/
def addAll (r : Registry) (entries : List (String × Owner)) : Registry :=
  entries.foldl (fun r e => (r.add e.2 e.1).2) r

/-- The entries whose text is not known when their turn comes. -/
def newEntries (known : List String) : List (String × Owner) → List (String × Owner)
  | [] => []
  | e :: rest => if e.1 ∈ known then newEntries known rest
      else e :: newEntries (known ++ [e.1]) rest

variable {known : List String} {l : List (String × Owner)}

theorem newEntries_append (known : List String) (l l' : List (String × Owner)) :
    newEntries known (l ++ l') =
      newEntries known l ++ newEntries (known ++ (newEntries known l).map (·.1)) l' := by
  induction l generalizing known with
  | nil => simp [newEntries]
  | cons e rest ih =>
    by_cases hknown : e.1 ∈ known
    · simp [newEntries, hknown, ih]
    · simp [newEntries, hknown, ih, List.append_assoc]

theorem mem_newEntries : (text, owner) ∈ newEntries known l ↔
    text ∉ known ∧ l.find? (·.1 = text) = some (text, owner) := by
  induction l generalizing known with
  | nil => simp [newEntries]
  | cons e rest ih =>
    by_cases htext : e.1 = text
    · subst htext
      by_cases hknown : e.1 ∈ known
      · simp [newEntries, hknown, ih]
      · simp [newEntries, hknown, ih, eq_comm]
    · have hne : (text, owner) ≠ e := fun heq => htext (congrArg Prod.fst heq.symm)
      by_cases hknown : e.1 ∈ known
      · simp [newEntries, hknown, htext, ih]
      · simp [newEntries, hknown, htext, hne, ih, Ne.symm htext]

theorem nodup_newEntries (hknown : known.Nodup) :
    (known ++ (newEntries known l).map (·.1)).Nodup := by
  induction l generalizing known with
  | nil => simpa [newEntries] using hknown
  | cons e rest ih =>
    by_cases hmem : e.1 ∈ known
    · simpa [newEntries, hmem] using ih hknown
    · have hmore : (known ++ [e.1]).Nodup := by
        have hapart : ∀ a ∈ known, a ≠ e.1 := fun a ha heq => hmem (heq ▸ ha)
        simpa [List.nodup_append, hknown] using hapart
      simpa [newEntries, hmem] using ih hmore

theorem addAll_cons (r : Registry) (e : String × Owner) (rest : List (String × Owner)) :
    r.addAll (e :: rest) = (r.add e.2 e.1).2.addAll rest :=
  rfl

theorem Passive.revision_addAll (h : r.Passive) (l : List (String × Owner)) :
    (r.addAll l).revision = r.revision := by
  induction l generalizing r with
  | nil => rfl
  | cons e rest ih => rw [addAll_cons, ih (h.of_react (react_add ..)), h.revision_add]

theorem Passive.texts_addAll (h : r.Passive) (l : List (String × Owner)) :
    (r.addAll l).texts = r.texts ++ (newEntries r.texts l).map (·.1) := by
  induction l generalizing r with
  | nil => simp [addAll, newEntries]
  | cons e rest ih =>
    have hrest := ih (h.of_react (react_add r e.2 e.1))
    by_cases hknown : e.1 ∈ r.texts
    · rw [add_of_mem hknown] at hrest
      simpa [addAll_cons, newEntries, hknown, add_of_mem] using hrest
    · rw [h.texts_add_of_not_mem hknown] at hrest
      simpa [addAll_cons, newEntries, hknown] using hrest

theorem Passive.mem_texts_addAll (h : r.Passive) {l : List (String × Owner)} :
    text ∈ (r.addAll l).texts ↔ text ∈ r.texts ∨ text ∈ l.map (·.1) := by
  induction l generalizing r with
  | nil => simp [addAll]
  | cons e rest ih =>
    rw [addAll_cons, ih (h.of_react (react_add ..)), h.mem_texts_add, List.map_cons, List.mem_cons,
      or_assoc]

/-! ## Who is told -/

/-- The subscriber of the number is active and was told about these owners. -/
def Hears (r : Registry) (number : Nat) (received : List Owner) : Prop :=
  r.mailboxes[number]? = some ⟨true, received⟩

variable {number : Nat} {received : List Owner}

theorem nodup_active (r : Registry) : r.active.Nodup :=
  List.nodup_range.filter _

theorem Hears.mem_active (h : r.Hears number received) : number ∈ r.active := by
  have hlt : number < r.mailboxes.size := (Array.getElem?_eq_some_iff.mp h).1
  rw [active, List.mem_filter, List.mem_range, h]
  exact ⟨hlt, rfl⟩

theorem Hears.tell_self (hpassive : r.Passive) (h : r.Hears number received) (owner : Owner) :
    (r.tell owner number).Hears number (received ++ [owner]) := by
  rw [Hears] at h
  simp [hpassive.tell_eq, RegistryState.hear, Hears, Array.getElem?_modify, h]

theorem Hears.tell_of_ne (hpassive : r.Passive) (h : r.Hears number received) (owner : Owner)
    {other : Nat} (hother : other ≠ number) : (r.tell owner other).Hears number received := by
  rw [Hears] at h
  simp [hpassive.tell_eq, RegistryState.hear, Hears, Array.getElem?_modify, hother, h]

theorem Hears.tells_of_not_mem (hpassive : r.Passive) (h : r.Hears number received) (owner : Owner)
    {numbers : List Nat} (hnot : number ∉ numbers) :
    (numbers.foldl (Registry.tell · owner ·) r).Hears number received := by
  induction numbers generalizing r with
  | nil => exact h
  | cons other rest ih =>
    rw [List.mem_cons, not_or] at hnot
    exact ih (r := r.tell owner other) hpassive
      (h.tell_of_ne hpassive owner (Ne.symm hnot.1)) hnot.2

theorem Hears.tells_of_mem (hpassive : r.Passive) (h : r.Hears number received) (owner : Owner)
    {numbers : List Nat} (hnodup : numbers.Nodup) (hmem : number ∈ numbers) :
    (numbers.foldl (Registry.tell · owner ·) r).Hears number (received ++ [owner]) := by
  induction numbers generalizing r with
  | nil => simp at hmem
  | cons other rest ih =>
    obtain ⟨hapart, hrest⟩ := List.nodup_cons.mp hnodup
    by_cases hsame : other = number
    · subst hsame
      exact Hears.tells_of_not_mem (r := r.tell owner other) hpassive (h.tell_self hpassive owner)
        owner hapart
    · have hlater : number ∈ rest := (List.mem_cons.mp hmem).resolve_left (Ne.symm hsame)
      exact ih (r := r.tell owner other) hpassive (h.tell_of_ne hpassive owner hsame) hrest hlater

theorem Hears.announce (hpassive : r.Passive) (h : r.Hears number received) (owner : Owner) :
    (r.announce owner).Hears number (received ++ [owner]) :=
  h.tells_of_mem hpassive owner r.nodup_active h.mem_active

theorem Hears.add_of_not_mem (hpassive : r.Passive) (h : r.Hears number received)
    (hnew : text ∉ r.texts) (owner : Owner) :
    (r.add owner text).2.Hears number (received ++ [owner]) := by
  have hunknown : r.contains text = false := by simpa [contains] using hnew
  rw [add, hunknown]
  exact Hears.announce (r := { r with texts := r.texts ++ [text] }) hpassive h owner

theorem Hears.addAll (hpassive : r.Passive) (h : r.Hears number received)
    (l : List (String × Owner)) :
    (r.addAll l).Hears number (received ++ (newEntries r.texts l).map (·.2)) := by
  induction l generalizing r received with
  | nil => simpa [Registry.addAll, newEntries] using h
  | cons e rest ih =>
    by_cases hknown : e.1 ∈ r.texts
    · simpa [addAll_cons, newEntries, hknown, add_of_mem] using ih hpassive h
    · have hrest := ih (hpassive.of_react (react_add ..)) (h.add_of_not_mem hpassive hknown e.2)
      rw [hpassive.texts_add_of_not_mem hknown] at hrest
      simpa [addAll_cons, newEntries, hknown] using hrest

theorem Hears.sync (h : r.Hears number received) (revision : Nat) :
    (r.sync revision).2.Hears number received := by
  rwa [Hears, mailboxes_sync]

theorem Hears.subscribe (h : r.Hears number received) : r.subscribe.2.Hears number received := by
  have hlt : number < r.mailboxes.size := (Array.getElem?_eq_some_iff.mp h).1
  rw [Hears, Registry.subscribe, Array.getElem?_push_lt hlt, ← Array.getElem?_eq_getElem hlt]
  exact h

theorem Hears.unsubscribe (h : r.Hears number received) {other : Nat} (hother : other ≠ number) :
    (r.unsubscribe other).2.Hears number received := by
  rw [Hears, Registry.unsubscribe, Array.getElem?_modify, if_neg hother]
  exact h

end KernelLint.Registry
