import TinyNetwork.Logger.LogStream

/-!
# Pointers in log records

The operands of a record as the program passes them: strings are addresses in its memory, and so
are the objects behind untyped pointers.  `operator<<(const void*)` casts its pointer to
`const char*`, and streams what it finds in the object.

## Main results

* `ProcessMemory.string_eq` : a string depends on its bytes and on its NUL only.
* `LogStream.stream_eq` : the stream when untyped pointers find no room for a byte.
* `LogStream.byValue_iff` : exactly when a record depends on the values of its operands only.
-/

namespace TinyNetwork

/-- The memory of the process.  Every string in it ends. -/
structure ProcessMemory where
  byte : ℕ → UInt8
  ends : ∀ addr, ∃ n, byte (addr + n) = 0

namespace ProcessMemory

def strlen (m : ProcessMemory) (addr : ℕ) : ℕ := Nat.find (m.ends addr)

/-- The `len` bytes from an address on. -/
def bytes (m : ProcessMemory) (addr len : ℕ) : List UInt8 :=
  (List.range len).map fun i => m.byte (addr + i)

/-- The string at an address, without its NUL. -/
def string (m : ProcessMemory) (addr : ℕ) : List UInt8 := m.bytes addr (m.strlen addr)

end ProcessMemory

/-- What is streamed with `<<`, as it is passed. -/
inductive Argument where
  | integer (v : Integer)
  | char (c : UInt8)
  /-- `const char*`; the null pointer is 0. -/
  | cstr (str : ℕ)
  /-- `const std::string&`: its `c_str()` and its `size()`. -/
  | string (c_str size : ℕ)
  /-- `const void*`. -/
  | untyped (data : ℕ)
  deriving DecidableEq

namespace Argument

/-- What `operator<<(const char*)` streams. -/
def cstrValue (m : ProcessMemory) (str : ℕ) : Operand :=
  .cstr (if str = 0 then none else some (m.string str))

/-- What `operator<<` of an argument streams. -/
def value (m : ProcessMemory) : Argument → Operand
  | integer v => .integer v
  | char c => .char c
  | cstr str => cstrValue m str
  | string c_str size => .string (m.bytes c_str size)
  -- `*this << static_cast<const char*>(data)`
  | untyped data => cstrValue m data

/-- The bytes of the C strings, their NULs included, and of the `std::string`s. -/
def Reads (m : ProcessMemory) : Argument → ℕ → Prop
  | cstr str, addr => str ≠ 0 ∧ str ≤ addr ∧ addr ≤ str + m.strlen str
  | string c_str size, addr => c_str ≤ addr ∧ addr < c_str + size
  | _, _ => False

end Argument

namespace LogStream

/-- `stream << a << b << ...`. -/
def stream (m : ProcessMemory) (b : LogStream) (args : List Argument) : Except Fault LogStream :=
  b.insertAll (args.map (Argument.value m))

/-- Two memories agree on the bytes of the C strings and of the `std::string`s. -/
def Agree (m m' : ProcessMemory) (args : List Argument) : Prop :=
  ∀ arg ∈ args, ∀ addr, arg.Reads m addr → m'.byte addr = m.byte addr

/-- The untyped pointers point to something else than these bytes. -/
def Apart (m : ProcessMemory) (args : List Argument) : Prop :=
  ∀ data, .untyped data ∈ args → data ≠ 0 →
    ∀ arg ∈ args, ¬ arg.Reads m data ∧ ¬ arg.Reads m (data + 1)

/-- A record depends on the values of its operands only. -/
structure ByValue (m : ProcessMemory) (b : LogStream) (args : List Argument) : Prop where
  /-- What is accepted is the same with any memory that agrees on the strings. -/
  accepted : ∀ m', Agree m m' args →
    FixedBuffer.accepted <$> stream m' b args = FixedBuffer.accepted <$> stream m b args
  /-- An untyped pointer adds the same text with all of them. -/
  untyped : ∀ pre data post, args = pre ++ .untyped data :: post → ∃ text, ∀ m', Agree m m' args →
    ∃ b₁ b₂, stream m' b pre = .ok b₁ ∧ stream m' b (pre ++ [.untyped data]) = .ok b₂ ∧
      b₂.accepted = b₁.accepted ++ text

/-- When an untyped pointer that is not null is streamed, there is no room left for a byte. -/
def NoRoom (m : ProcessMemory) (b : LogStream) (args : List Argument) : Prop :=
  ∀ pre data post, args = pre ++ .untyped data :: post → data ≠ 0 →
    ∀ b', stream m b pre = .ok b' → b'.avail ≤ 1

end LogStream

/-! ### Strings in memory -/

namespace ProcessMemory

/-- The memory that begins with the given bytes. -/
def ofBytes (bytes : List UInt8) : ProcessMemory where
  byte addr := bytes.getD addr 0
  ends _ := ⟨bytes.length, List.getD_eq_default _ _ (Nat.le_add_left _ _)⟩

variable {m m' : ProcessMemory} {addr len : ℕ}

theorem bytes_eq (h : ∀ i < len, m'.byte (addr + i) = m.byte (addr + i)) :
    m'.bytes addr len = m.bytes addr len :=
  List.map_congr_left fun i hi => h i (List.mem_range.1 hi)

theorem strlen_eq (hend : m.byte (addr + len) = 0) (h : ∀ i < len, m.byte (addr + i) ≠ 0) :
    m.strlen addr = len := (Nat.find_eq_iff _).2 ⟨hend, h⟩

theorem byte_strlen (m : ProcessMemory) (addr : ℕ) : m.byte (addr + m.strlen addr) = 0 :=
  Nat.find_spec (m.ends addr)

theorem byte_ne_zero (h : len < m.strlen addr) : m.byte (addr + len) ≠ 0 :=
  Nat.find_min (m.ends addr) h

theorem length_string (m : ProcessMemory) (addr : ℕ) : (m.string addr).length = m.strlen addr := by
  rw [string, bytes, List.length_map, List.length_range]

theorem string_eq_bytes (hend : m.byte (addr + len) = 0)
    (h : ∀ i < len, m.byte (addr + i) ≠ 0) : m.string addr = m.bytes addr len := by
  rw [string, strlen_eq hend h]

/-- A string between other bytes is found. -/
theorem string_ofBytes {all bytes : List UInt8} (pre post : List UInt8)
    (hall : all = pre ++ (bytes ++ 0 :: post)) (hpre : pre.length = addr) (hnul : 0 ∉ bytes) :
    (ofBytes all).string addr = bytes := by
  subst hall hpre
  have hbyte : ∀ i, (ofBytes (pre ++ (bytes ++ 0 :: post))).byte (pre.length + i) =
      (bytes ++ 0 :: post).getD i 0 := by
    intro i
    show (pre ++ (bytes ++ 0 :: post)).getD (pre.length + i) 0 = _
    rw [List.getD_append_right _ _ _ _ (Nat.le_add_right _ _), Nat.add_sub_cancel_left]
  have hinside : ∀ i (hi : i < bytes.length), (bytes ++ 0 :: post).getD i 0 = bytes[i] := by
    intro i hi
    rw [List.getD_append _ _ _ _ hi, List.getD_eq_getElem _ _ hi]
  have hend : (bytes ++ 0 :: post).getD bytes.length 0 = 0 := by
    rw [List.getD_append_right _ _ _ _ le_rfl, Nat.sub_self]
    rfl
  rw [string_eq_bytes (by rw [hbyte, hend])]
  · refine List.ext_getElem (by rw [ProcessMemory.bytes, List.length_map, List.length_range]) ?_
    intro i hi hi'
    simp only [ProcessMemory.bytes, List.getElem_map, List.getElem_range]
    rw [hbyte, hinside i hi']
  · intro i hi hzero
    rw [hbyte, hinside i hi] at hzero
    exact hnul (hzero ▸ List.getElem_mem hi)

/-- A string depends on its bytes and on its NUL only. -/
theorem string_eq (h : ∀ i ≤ m.strlen addr, m'.byte (addr + i) = m.byte (addr + i)) :
    m'.string addr = m.string addr := by
  have hlen : m'.strlen addr = m.strlen addr := by
    refine strlen_eq ?_ fun i hi => ?_
    · rw [h _ le_rfl, byte_strlen]
    · rw [h i hi.le]
      exact byte_ne_zero hi
  rw [string, hlen]
  exact bytes_eq fun i hi => h i hi.le

/-- The memory with a string of one byte put at an address. -/
def put (m : ProcessMemory) (addr : ℕ) (c : UInt8) : ProcessMemory where
  byte := Function.update (Function.update m.byte addr c) (addr + 1) 0
  ends a := by
    by_cases ha : a ≤ addr + 1
    · exact ⟨addr + 1 - a, by rw [Nat.add_sub_cancel' ha, Function.update_self]⟩
    · obtain ⟨n, hn⟩ := m.ends a
      refine ⟨n, ?_⟩
      rw [Function.update_of_ne (by omega), Function.update_of_ne (by omega), hn]

theorem byte_put_of_ne {a : ℕ} {c : UInt8} (h : a ≠ addr) (h' : a ≠ addr + 1) :
    (m.put addr c).byte a = m.byte a := by
  show Function.update (Function.update m.byte addr c) (addr + 1) 0 a = _
  rw [Function.update_of_ne h', Function.update_of_ne h]

theorem string_put {c : UInt8} (hc : c ≠ 0) : (m.put addr c).string addr = [c] := by
  have hfirst : (m.put addr c).byte (addr + 0) = c := by
    show Function.update (Function.update m.byte addr c) (addr + 1) 0 addr = c
    rw [Function.update_of_ne (by omega), Function.update_self]
  have hlen : (m.put addr c).strlen addr = 1 := by
    refine strlen_eq (Function.update_self _ _ _) fun i hi => ?_
    rw [Nat.lt_one_iff.1 hi, hfirst]
    exact hc
  rw [string, hlen, bytes, List.range_one, List.map_singleton, hfirst]

end ProcessMemory

/-! ### Streaming arguments -/

namespace LogStream

variable {m m' : ProcessMemory} {b b' : LogStream} {arg : Argument} {args : List Argument}
  {data : ℕ}

theorem value_eq (hagree : ∀ addr, arg.Reads m addr → m'.byte addr = m.byte addr)
    (h : ∀ data, arg = .untyped data → data = 0) : arg.value m' = arg.value m := by
  cases arg with
  | integer v => rfl
  | char c => rfl
  | cstr str =>
    by_cases hnull : str = 0
    · rw [hnull]
      rfl
    · have hstring : m'.string str = m.string str :=
        ProcessMemory.string_eq fun i hi => hagree _ ⟨hnull, by omega, by omega⟩
      simp only [Argument.value, Argument.cstrValue, hstring]
  | string c_str size =>
    exact congrArg Operand.string (ProcessMemory.bytes_eq fun i hi => hagree _ ⟨by omega, by omega⟩)
  | untyped data =>
    rw [h data rfl]
    rfl

/-- A string changes nothing when there is no room for a byte. -/
theorem insert_string_of_avail_le_one (h : b.avail ≤ 1) (str : List UInt8) :
    insert b (.cstr (some str)) = .ok b := by
  show Except.ok (b.append str) = .ok b
  congr 1
  by_cases hfits : str.length < b.avail
  · -- only the empty string fits
    have hnil : str = [] := List.eq_nil_of_length_eq_zero (by omega)
    subst hnil
    rw [FixedBuffer.append, dif_pos hfits]
    simp only [List.append_nil, List.length_nil, Nat.add_zero, List.take_append_drop]
  · exact FixedBuffer.append_of_le (Nat.not_lt.1 hfits)

theorem insert_value_eq (hagree : ∀ addr, arg.Reads m addr → m'.byte addr = m.byte addr)
    (hroom : ∀ data, arg = .untyped data → data ≠ 0 → b.avail ≤ 1) :
    insert b (arg.value m') = insert b (arg.value m) := by
  by_cases h : ∀ data, arg = .untyped data → data = 0
  · rw [value_eq hagree h]
  · push Not at h
    obtain ⟨data, rfl, hdata⟩ := h
    have hempty : ∀ m, insert b (Argument.value m (.untyped data)) = .ok b := by
      intro m
      rw [Argument.value, Argument.cstrValue, if_neg hdata]
      exact insert_string_of_avail_le_one (hroom data rfl hdata) _
    rw [hempty, hempty]

theorem stream_cons (h : insert b (arg.value m) = .ok b') :
    stream m b (arg :: args) = stream m b' args := by
  show (insert b (arg.value m) >>= fun b => b.insertAll _) = _
  rw [h]
  rfl

theorem insert_ok (b : LogStream) (o : Operand) : ∃ b', insert b o = .ok b' := by
  obtain ⟨b', hb', -⟩ := insert_eq b o
  exact ⟨b', hb'⟩

theorem NoRoom.cons (h : NoRoom m b (arg :: args)) (hb : insert b (arg.value m) = .ok b') :
    NoRoom m b' args := by
  intro pre data post hargs hdata b'' hb''
  refine h (arg :: pre) data post (by rw [hargs]; rfl) hdata b'' ?_
  rw [stream_cons hb]
  exact hb''

/-- **The stream does not depend on what untyped pointers point to** when they find no room. -/
theorem stream_eq (hagree : Agree m m' args) (h : NoRoom m b args) :
    stream m' b args = stream m b args := by
  induction args generalizing b with
  | nil => rfl
  | cons arg args ih =>
    obtain ⟨b₁, hb₁⟩ := insert_ok b (arg.value m)
    have hfirst : insert b (arg.value m') = .ok b₁ := by
      rw [insert_value_eq (hagree arg List.mem_cons_self) ?_, hb₁]
      intro data harg hdata
      exact h [] data args (by rw [harg]; rfl) hdata b rfl
    rw [stream_cons hb₁, stream_cons hfirst]
    exact ih (fun a ha => hagree a (List.mem_cons_of_mem _ ha)) (h.cons hb₁)

/-- With room for a byte, the byte found behind a pointer is accepted. -/
theorem stream_put (m : ProcessMemory) (args : List Argument) {c : UInt8} (hc : c ≠ 0)
    (hdata : data ≠ 0) (h : 1 < b.avail) :
    ∃ b', stream (m.put data c) b (.untyped data :: args) = .ok b' ∧
      b'.accepted[b.cur]? = some c := by
  have hvalue : Argument.value (m.put data c) (.untyped data) = .cstr (some [c]) := by
    rw [Argument.value, Argument.cstrValue, if_neg hdata, ProcessMemory.string_put hc]
  have hfirst : insert b (Argument.value (m.put data c) (.untyped data)) = .ok (b.append [c]) := by
    rw [hvalue]
    rfl
  obtain ⟨b', hb', hext⟩ := insertAll_eq (args.map (Argument.value (m.put data c))) (b.append [c])
  refine ⟨b', (stream_cons hfirst).trans hb', ?_⟩
  rw [hext.accepted, FixedBuffer.accepted_append_of_lt (by exact h), List.append_assoc,
    List.getElem?_append_right (Nat.le_of_eq b.length_accepted), b.length_accepted, Nat.sub_self]
  rfl

/-- If what is accepted is the same whatever the first pointer points to, there is no room for
it. -/
theorem avail_le_of_same {R : ℕ → Prop} {data : ℕ} (hdata : data ≠ 0) (hout : ¬ R data)
    (hout' : ¬ R (data + 1))
    (hsame : ∀ m' : ProcessMemory, (∀ addr, R addr → m'.byte addr = m.byte addr) →
      FixedBuffer.accepted <$> stream m' b (.untyped data :: args) =
        FixedBuffer.accepted <$> stream m b (.untyped data :: args)) : b.avail ≤ 1 := by
  by_contra hfree
  -- two memories that differ in the byte pointed to
  have hput : ∀ c : UInt8,
      FixedBuffer.accepted <$> stream (m.put data c) b (.untyped data :: args) =
        FixedBuffer.accepted <$> stream m b (.untyped data :: args) := by
    intro c
    refine hsame _ fun addr haddr => ProcessMemory.byte_put_of_ne ?_ ?_
    · rintro rfl
      exact hout haddr
    · rintro rfl
      exact hout' haddr
  obtain ⟨b₁, hb₁, hone⟩ := stream_put m args
    (show (1 : UInt8) ≠ 0 by decide) hdata (Nat.lt_of_not_le hfree)
  obtain ⟨b₂, hb₂, htwo⟩ := stream_put m args
    (show (2 : UInt8) ≠ 0 by decide) hdata (Nat.lt_of_not_le hfree)
  have heq := (hput 1).trans (hput 2).symm
  rw [hb₁, hb₂] at heq
  have hacc : b₁.accepted = b₂.accepted := Except.ok.inj heq
  rw [hacc, htwo] at hone
  exact absurd hone (by decide)

/-- If what is accepted is the same whatever stands outside of `R`, where the untyped pointers
point, they find no room. -/
theorem noRoom_of_same {R : ℕ → Prop}
    (hreads : ∀ arg ∈ args, ∀ addr, arg.Reads m addr → R addr)
    (hapart : ∀ data, .untyped data ∈ args → data ≠ 0 → ¬ R data ∧ ¬ R (data + 1))
    (hsame : ∀ m' : ProcessMemory, (∀ addr, R addr → m'.byte addr = m.byte addr) →
      FixedBuffer.accepted <$> stream m' b args = FixedBuffer.accepted <$> stream m b args) :
    NoRoom m b args := by
  induction args generalizing b with
  | nil =>
    intro pre data post hargs
    exact absurd hargs.symm (List.append_ne_nil_of_right_ne_nil _ (List.cons_ne_nil _ _))
  | cons arg args ih =>
    have hroom : ∀ data, arg = .untyped data → data ≠ 0 → b.avail ≤ 1 := by
      rintro data rfl hdata
      obtain ⟨hout, hout'⟩ := hapart data List.mem_cons_self hdata
      exact avail_le_of_same hdata hout hout' hsame
    obtain ⟨b₁, hb₁⟩ := insert_ok b (arg.value m)
    have hrest : NoRoom m b₁ args := by
      refine ih (fun a ha => hreads a (List.mem_cons_of_mem _ ha))
        (fun data hmem => hapart data (List.mem_cons_of_mem _ hmem)) fun m' hm' => ?_
      have hfirst : insert b (arg.value m') = .ok b₁ := by
        rw [insert_value_eq (fun addr haddr => hm' addr (hreads arg List.mem_cons_self addr haddr))
          hroom, hb₁]
      rw [← stream_cons hfirst, ← stream_cons hb₁]
      exact hsame m' hm'
    intro pre data post hargs hdata b' hb'
    cases pre with
    | nil =>
      obtain ⟨rfl, -⟩ := List.cons.inj hargs
      obtain rfl : b = b' := Except.ok.inj hb'
      exact hroom data rfl hdata
    | cons a pre =>
      obtain ⟨rfl, htail⟩ := List.cons.inj hargs
      rw [stream_cons hb₁] at hb'
      exact hrest pre data post htail hdata b' hb'

theorem NoRoom.append {args' : List Argument} (h : NoRoom m b (args ++ args')) :
    NoRoom m b args := fun pre data post hargs =>
  h pre data (post ++ args') (by rw [hargs, List.append_assoc, List.cons_append])

theorem stream_append (m : ProcessMemory) (b : LogStream) (args args' : List Argument) :
    stream m b (args ++ args') = stream m b args >>= fun b => stream m b args' := by
  rw [stream, List.map_append, insertAll_append]
  rfl

/-- **A record depends on the values of its operands only** if and only if no untyped pointer but
null is streamed while there is room for a byte. -/
theorem byValue_iff (hapart : Apart m args) : ByValue m b args ↔ NoRoom m b args := by
  constructor
  · intro h
    refine noRoom_of_same (R := fun addr => ∃ arg ∈ args, arg.Reads m addr)
      (fun arg harg addr haddr => ⟨arg, harg, haddr⟩) (fun data hmem hdata => ?_) fun m' hm' => ?_
    · constructor
      · rintro ⟨arg, harg, hreads⟩
        exact (hapart data hmem hdata arg harg).1 hreads
      · rintro ⟨arg, harg, hreads⟩
        exact (hapart data hmem hdata arg harg).2 hreads
    · exact h.accepted m' fun arg harg addr haddr => hm' addr ⟨arg, harg, haddr⟩
  · intro h
    refine ⟨fun m' hagree => by rw [stream_eq hagree h], fun pre data post hargs => ?_⟩
    have hsplit : args = (pre ++ [.untyped data]) ++ post := by
      rw [hargs, List.append_assoc]
      rfl
    rw [hsplit] at h ⊢
    obtain ⟨b₁, hb₁, -⟩ := insertAll_eq (pre.map (Argument.value m)) b
    obtain ⟨b₂, hb₂, hone⟩ := insert_eq b₁ (Argument.value m (.untyped data))
    -- what the pointer adds with `m` it adds with all of them
    have hadds : ∃ text, b₂.accepted = b₁.accepted ++ text := by
      split_ifs at hone with hfits
      · exact ⟨_, hone.accepted⟩
      · exact ⟨[], by rw [hone, List.append_nil]⟩
    obtain ⟨text, htext⟩ := hadds
    refine ⟨text, fun m' hagree => ⟨b₁, b₂, ?_, ?_, htext⟩⟩
    · rw [stream_eq (fun arg harg => hagree arg (List.mem_append_left _
        (List.mem_append_left _ harg))) h.append.append]
      exact hb₁
    · rw [stream_eq (fun arg harg => hagree arg (List.mem_append_left _ harg)) h.append,
        stream_append]
      refine bind_eq_ok.2 ⟨b₁, hb₁, ?_⟩
      exact bind_eq_ok.2 ⟨b₂, hb₂, rfl⟩

/-- An integer, an untyped null pointer, and an object when one byte is left. -/
theorem byValue_iff_full :
    ByValue (ProcessMemory.ofBytes []) zeroed
        [.integer ⟨-1, by decide⟩, .untyped 0, .string 8 3991, .untyped 4096] ↔
      NoRoom (ProcessMemory.ofBytes []) zeroed
        [.integer ⟨-1, by decide⟩, .untyped 0, .string 8 3991, .untyped 4096] := by
  refine byValue_iff ?_
  intro data hmem hdata arg harg
  simp only [List.mem_cons, List.not_mem_nil, or_false, reduceCtorEq, false_or,
    Argument.untyped.injEq] at hmem
  obtain rfl := hmem.resolve_left hdata
  simp only [List.mem_cons, List.not_mem_nil, or_false] at harg
  rcases harg with rfl | rfl | rfl | rfl <;> simp [Argument.Reads]

/-- An `EventLoop` begins with `looping_`, `quit_` and `callingPendingFunctors_`; here another
thread may have called `quit`. -/
def loopMemory (quit : UInt8) : ProcessMemory :=
  .ofBytes ([0] ++ (ascii "EventLoop " ++ 0 :: (ascii " start looping" ++ 0 :: [1, quit, 0])))

/-- `LOG_INFO << "EventLoop " << this << " start looping"`. -/
def loopRecord : List Argument := [.cstr 1, .untyped 27, .cstr 12]

theorem string_loopMemory (quit : UInt8) :
    (loopMemory quit).string 1 = ascii "EventLoop " ∧
      (loopMemory quit).string 12 = ascii " start looping" :=
  ⟨ProcessMemory.string_ofBytes [0] _ rfl rfl (by decide +kernel),
    ProcessMemory.string_ofBytes ([0] ++ ascii "EventLoop " ++ [0]) [1, quit, 0] (by simp)
      (by decide +kernel) (by decide +kernel)⟩

theorem loopMemory_agree (quit quit' : UInt8) :
    Agree (loopMemory quit) (loopMemory quit') loopRecord := by
  obtain ⟨hfirst, hlast⟩ := string_loopMemory quit
  have hlen : (loopMemory quit).strlen 1 = 10 := by
    rw [← ProcessMemory.length_string, hfirst]
    rfl
  have hlen' : (loopMemory quit).strlen 12 = 14 := by
    rw [← ProcessMemory.length_string, hlast]
    rfl
  intro arg harg addr hreads
  have hbefore : addr ≤ 26 := by
    simp only [loopRecord, List.mem_cons, List.not_mem_nil, or_false] at harg
    rcases harg with rfl | rfl | rfl
    · have hle := hreads.2.2
      omega
    · exact absurd hreads id
    · have hle := hreads.2.2
      omega
  interval_cases addr <;> rfl

theorem stream_loopRecord {quit : UInt8} {object : List UInt8}
    (h : (loopMemory quit).string 27 = object) (hlen : object.length ≤ 2) :
    ∃ b, stream (loopMemory quit) zeroed loopRecord = .ok b ∧
      b.accepted = ascii "EventLoop " ++ object ++ ascii " start looping" := by
  obtain ⟨hfirst, hlast⟩ := string_loopMemory quit
  have hvalues : loopRecord.map (Argument.value (loopMemory quit)) =
      [.cstr (some (ascii "EventLoop ")), .cstr (some object),
        .cstr (some (ascii " start looping"))] := by
    rw [← hfirst, ← hlast, ← h]
    rfl
  obtain ⟨b, hb, hext⟩ :=
    insertAll_eq (loopRecord.map (Argument.value (loopMemory quit))) zeroed
  refine ⟨b, hb, ?_⟩
  have hfits : Operand.accepted 4000 [.cstr (some (ascii "EventLoop ")), .cstr (some object),
      .cstr (some (ascii " start looping"))] = [.cstr (some (ascii "EventLoop ")),
        .cstr (some object), .cstr (some (ascii " start looping"))] := by
    have hev : (ascii "EventLoop ").length = 10 := by decide +kernel
    have hst : (ascii " start looping").length = 14 := by decide +kernel
    simp only [Operand.accepted, Operand.Fits, Operand.text, hev, hst]
    rw [if_pos (by decide), if_pos (by omega), if_pos (by omega)]
  have htext : streamed (Operand.accepted zeroed.avail
      (loopRecord.map (Argument.value (loopMemory quit)))) =
      ascii "EventLoop " ++ object ++ ascii " start looping" := by
    rw [hvalues, avail_zeroed, hfits]
    simp [streamed, Operand.text]
  rw [← htext]
  exact hext.accepted

/-- Another thread that calls `quit` changes the record of the loop. -/
theorem not_byValue_loop :
    ∃ b b', Agree (loopMemory 0) (loopMemory 1) loopRecord ∧
      stream (loopMemory 0) zeroed loopRecord = .ok b ∧
      stream (loopMemory 1) zeroed loopRecord = .ok b' ∧
      b.accepted = ascii "EventLoop " ++ [1] ++ ascii " start looping" ∧
      b'.accepted = ascii "EventLoop " ++ [1, 1] ++ ascii " start looping" ∧
      b.accepted ≠ b'.accepted := by
  have hone : (loopMemory 0).string 27 = [1] :=
    ProcessMemory.string_ofBytes
      ([0] ++ ascii "EventLoop " ++ [0] ++ ascii " start looping" ++ [0]) [0] (by simp)
      (by decide +kernel) (by decide)
  have htwo : (loopMemory 1).string 27 = [1, 1] :=
    ProcessMemory.string_ofBytes
      ([0] ++ ascii "EventLoop " ++ [0] ++ ascii " start looping" ++ [0]) [] (by simp)
      (by decide +kernel) (by decide)
  obtain ⟨b, hb, hacc⟩ := stream_loopRecord hone (by decide)
  obtain ⟨b', hb', hacc'⟩ := stream_loopRecord htwo (by decide)
  refine ⟨b, b', loopMemory_agree 0 1, hb, hb', hacc, hacc', ?_⟩
  rw [hacc, hacc']
  decide +kernel

end LogStream

end TinyNetwork
