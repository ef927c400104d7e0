/-
VortexOS.Fs.Vfs — the virtual file system of `kernel/vfs.cpp`.

A pointer to a node is its number, in the order in which `create_node` makes
them. `mem n` says whether the `n`-th call of `kmalloc` finds memory;
nothing here is ever freed.

A string is the list of the bytes from a `const char*` on, with zeros behind
the list. A stored name is what `str_cpy` leaves before its terminator.

`none` as the result of a function means that it does not return: a loop
along a list of nodes that does not end. Null pointers are `none` inside of
the result. What reading and writing a node does is not here.
-/
import VortexOS.Lib.Queue
import VortexOS.Lib.Run

namespace VortexOS.Fs

open Lib

/-! ## Strings -/

abbrev Byte := BitVec 8

def slash : Byte := 0x2F

def dot : List Byte := [0x2E]
def dotdot : List Byte := [0x2E, 0x2E]
def dev : List Byte := [0x64, 0x65, 0x76]

def strCmp : List Byte → List Byte → Int
  | a :: as, b :: bs => if a ≠ 0 ∧ a = b then strCmp as bs else (a.toNat : Int) - b.toNat
  | a :: _, [] => a.toNat
  | [], b :: _ => -(b.toNat : Int)
  | [], [] => 0

/-- The loop of `str_cpy`, with room for `n` bytes. -/
def copyLoop : List Byte → Nat → List Byte
  | c :: src, n + 1 => if c ≠ 0 then c :: copyLoop src n else []
  | _, _ => []

def strCpy (src : List Byte) (maxLen : Nat) : List Byte := copyLoop src (maxLen - 1)

/-! ## Nodes (`vfs.hpp`) -/

inductive NodeType where
  | file | directory | charDevice | blockDevice | pipe | socket
  deriving DecidableEq, Repr

inductive VfsOps where
  | kTmpDirOps | kTmpFileOps | kDevDirOps | kDevNullOps | kDevZeroOps | kDevConsoleOps | kDevRtcOps
  deriving DecidableEq, Repr

structure VfsNode where
  name : List Byte
  type : NodeType
  size : Nat
  uid : Nat
  gid : Nat
  permissions : Nat
  ops : Option VfsOps
  privateData : Option Nat
  parent : Option Nat
  children : Option Nat
  nextSibling : Option Nat
  deriving DecidableEq, Repr

def sizeofName : Nat := 256

/-- The nodes, how often `kmalloc` was called, and the globals.
`kMountList` has the pairs of mount point and mounted root, newest first. -/
structure Vfs where
  nodes : Nat → VfsNode
  nodeCount : Nat
  mallocs : Nat
  kRootNode : Option Nat
  kMountList : List (Nat × Nat)

namespace Vfs

def modNode (s : Vfs) (n : Nat) (f : VfsNode → VfsNode) : Vfs :=
  { s with nodes := Function.update s.nodes n (f (s.nodes n)) }

def setOps (s : Vfs) (n : Nat) (ops : Option VfsOps) :
    Vfs := s.modNode n fun node => { node with ops := ops }

def setParent (s : Vfs) (n : Nat) (p : Option Nat) : Vfs :=
  s.modNode n fun node => { node with parent := p }

def setRoot (s : Vfs) (root : Nat) : Vfs := { s with kRootNode := some root }

def addMount (s : Vfs) (mountPoint mountedRoot : Nat) : Vfs :=
  { s with kMountList := (mountPoint, mountedRoot) :: s.kMountList }

def parent (s : Vfs) (n : Nat) : Option Nat := (s.nodes n).parent
def children (s : Vfs) (n : Nat) : Option Nat := (s.nodes n).children
def nextSibling (s : Vfs) (n : Nat) : Option Nat := (s.nodes n).nextSibling

def bump (s : Vfs) : Vfs := { s with mallocs := s.mallocs + 1 }

def childList (s : Vfs) (d : Nat) : List Nat := chainList s.nextSibling s.nodeCount (s.children d)

end Vfs

section

variable (mem : Nat → Bool)

def kmalloc (s : Vfs) : Bool × Vfs := (mem s.mallocs, s.bump)

def newNode (name : List Byte) (type : NodeType) : VfsNode where
  name := strCpy name sizeofName
  type := type
  size := 0
  uid := 0
  gid := 0
  permissions := 0o755
  ops := none
  privateData := none
  parent := none
  children := none
  nextSibling := none

def Vfs.push (s : Vfs) (n : VfsNode) : Vfs :=
  { s with nodes := Function.update s.nodes s.nodeCount n, nodeCount := s.nodeCount + 1 }

def createNode (name : List Byte) (type : NodeType) (s : Vfs) : Option Nat × Vfs :=
  match kmalloc mem s with
  | (false, s) => (none, s)
  | (true, s) => (some s.nodeCount, s.push (newNode name type))

def dirAddChild (parent child : Nat) (s : Vfs) : Vfs :=
  let s := s.setParent child (some parent)
  let s := s.modNode child fun n => { n with nextSibling := s.children parent }
  s.modNode parent fun n => { n with children := some child }

/-! ## Directories -/

/-- `tmpfs_dir_open` and `devfs_dir_open` for nodes and names that are not
null. -/
def dirOpen (node : Nat) (name : List Byte) (s : Vfs) : Option (Option Nat) :=
  if strCmp name dot = 0 then some (some node)
  else if strCmp name dotdot = 0 then some (some ((s.parent node).getD node))
  else
    searchChain s.nextSibling (fun child => strCmp (s.nodes child).name name = 0) s.nodeCount
      (s.children node)

def tmpfsDirOpen : Nat → List Byte → Vfs → Option (Option Nat) := dirOpen

def devfsDirOpen : Nat → List Byte → Vfs → Option (Option Nat) := dirOpen

def VfsOps.open : VfsOps → Option (Nat → List Byte → Vfs → Option (Option Nat))
  | .kTmpDirOps => some tmpfsDirOpen
  | .kDevDirOps => some devfsDirOpen
  | _ => none

/-- `node->ops->open`, if neither pointer is null. -/
def Vfs.openOp (s : Vfs) (node : Nat) : Option (Nat → List Byte → Vfs → Option (Option Nat)) :=
  (s.nodes node).ops.bind VfsOps.open

/-! ## Mounts -/

/-- The result says whether there was memory for the entry. -/
def mountAdd (mountPoint mountedRoot : Nat) (s : Vfs) : Bool × Vfs :=
  match kmalloc mem s with
  | (false, s) => (false, s)
  | (true, s) => (true, (s.addMount mountPoint mountedRoot).setParent mountedRoot (some mountPoint))

def mountResolve (node : Nat) (s : Vfs) : Nat :=
  ((s.kMountList.find? fun entry => entry.1 = node).map Prod.snd).getD node

/-! ## Paths -/

/-- The inner loop of `resolve_path`, with room for `n` bytes. -/
def takeComponent : Nat → List Byte → List Byte
  | n + 1, c :: path => if c ≠ 0 ∧ c ≠ slash then c :: takeComponent n path else []
  | _, _ => []

/-- What one component does. -/
def stepComponent (s : Vfs) (current : Nat) (component : List Byte) : Option (Option Nat) :=
  if strCmp component dot = 0 then some (some current)
  else if strCmp component dotdot = 0 then some (some ((s.parent current).getD current))
  else
    match s.openOp current with
    | none => some none
    | some op =>
      match op current component s with
      | none => none
      | some none => some none
      | some (some next) => some (some (mountResolve next s))

def resolveLoop (s : Vfs) : Nat → Nat → List Byte → Option (Option Nat)
  | 0, _, _ => none
  | n + 1, current, path =>
    let path := path.dropWhile (· == slash)
    if path.headD 0 = 0 then some (some current)
    else
      let component := takeComponent (sizeofName - 1) path
      match stepComponent s current component with
      | none => none
      | some none => some none
      | some (some next) => resolveLoop s n next (path.drop component.length)

def resolvePath (base : Nat) (path : List Byte) (s : Vfs) : Option (Option Nat) :=
  resolveLoop s (path.length + 1) base path

/-! ## Public API -/

def noNode : VfsNode := { newNode [] .file with permissions := 0 }

def Vfs.blank : Vfs := ⟨fun _ => noNode, 0, 0, none, []⟩

def makeDev (name : List Byte) (ops : VfsOps) (size perms : Nat) (s : Vfs) : Option Nat × Vfs :=
  match createNode mem name .charDevice s with
  | (none, s) => (none, s)
  | (some n, s) =>
    (some n, s.modNode n fun node =>
      { node with ops := some ops, size := size, permissions := perms })

def rootName : List Byte := [0x2F]
def nullName : List Byte := [0x6E, 0x75, 0x6C, 0x6C]
def zeroName : List Byte := [0x7A, 0x65, 0x72, 0x6F]
def consoleName : List Byte := [0x63, 0x6F, 0x6E, 0x73, 0x6F, 0x6C, 0x65]
def rtcName : List Byte := [0x72, 0x74, 0x63]

def sizeofRtcTime : Nat := 8

/-- What `make_dev` is called with, in this order. -/
def devices : List (List Byte × VfsOps × Nat × Nat) :=
  [(nullName, .kDevNullOps, 0, 0o666), (zeroName, .kDevZeroOps, 0, 0o666),
    (consoleName, .kDevConsoleOps, 0, 0o666), (rtcName, .kDevRtcOps, sizeofRtcTime, 0o644)]

/-- The calls of `make_dev`, with the nodes that were made. -/
def makeDevs : List (List Byte × VfsOps × Nat × Nat) → Vfs → List Nat × Vfs
  | [], s => ([], s)
  | (name, ops, size, perms) :: devs, s =>
    let (n, s) := makeDev mem name ops size perms s
    let (ns, s) := makeDevs devs s
    (n.toList ++ ns, s)

/-- The calls of `dir_add_child` behind them, which leave out a device that
was not made. -/
def addDevs (devRoot : Nat) (devs : List Nat) (s : Vfs) : Vfs :=
  devs.foldl (fun s n => dirAddChild devRoot n s) s

/-- The part of `vfs_init` behind the devfs root. -/
def initDevfs (mountPoint devRoot : Nat) (s : Vfs) : Vfs :=
  let s := s.setOps devRoot (some .kDevDirOps)
  let (devs, s) := makeDevs mem devices s
  (mountAdd mem mountPoint devRoot (addDevs devRoot devs s)).2

/-- The part of `vfs_init` behind the root. -/
def initDev (root : Nat) (s : Vfs) : Vfs :=
  match createNode mem dev .directory s with
  | (none, s) => s
  | (some mountPoint, s) =>
    let s := s.setOps mountPoint (some .kTmpDirOps)
    let s := dirAddChild root mountPoint s
    match createNode mem dev .directory s with
    | (none, s) => s
    | (some devRoot, s) => initDevfs mem mountPoint devRoot s

def vfsInit : Vfs :=
  match createNode mem rootName .directory .blank with
  | (none, s) => s
  | (some root, s) =>
    let s := s.setRoot root
    let s := s.setOps root (some .kTmpDirOps)
    let s := s.setParent root (some root)
    initDev mem root s

def vfsOpen (path : Option (List Byte)) (s : Vfs) : Option (Option Nat) :=
  match path, s.kRootNode with
  | some path, some root =>
    if path.headD 0 = slash then resolvePath root path.tail s else resolvePath root path s
  | _, _ => some none

def vfsReaddir (dir : Option Nat) (index : Nat) (s : Vfs) : Option (Option Nat) :=
  match dir with
  | none => some none
  | some dir =>
    if (s.nodes dir).type ≠ .directory then some none
    else nthChain s.nextSibling s.nodeCount (s.children dir) index

/-- `vfs_mkdir` behind the search for the name. -/
def makeDir (parent : Nat) (name : List Byte) (s : Vfs) : Option Nat × Vfs :=
  match createNode mem name .directory s with
  | (none, s) => (none, s)
  | (some dir, s) =>
    let s := s.setOps dir (s.nodes parent).ops
    (some dir, dirAddChild parent dir s)

def vfsMkdir (parent : Option Nat) (name : Option (List Byte)) (s : Vfs) :
    Option (Option Nat × Vfs) :=
  match parent, name with
  | some parent, some name =>
    if (s.nodes parent).type ≠ .directory then some (none, s)
    else
      match s.openOp parent with
      | none => some (makeDir mem parent name s)
      | some op =>
        match op parent name s with
        | none => none
        | some (some _) => some (none, s)
        | some none => some (makeDir mem parent name s)
  | _, _ => some (none, s)

/-! ## Runs -/

/-- The nodes of the file system: what can be reached from the root down
the child lists and through mounts. -/
inductive Vfs.Reachable (s : Vfs) : Nat → Prop
  | root {r : Nat} (h : s.kRootNode = some r) : s.Reachable r
  | child {d c : Nat} (hd : s.Reachable d) (h : c ∈ s.childList d) : s.Reachable c
  | mounted {m r : Nat} (hm : s.Reachable m) (h : (m, r) ∈ s.kMountList) : s.Reachable r

/-- `vfs_mkdir`, or `create_node` and `dir_add_child` of the new node. -/
inductive VfsOp where
  | mkdir (parent : Nat) (name : List Byte)
  | addChild (parent : Nat) (name : List Byte) (type : NodeType)
  deriving Repr

def vfsStep (s : Vfs) : VfsOp → Option Vfs
  | .mkdir parent name => (vfsMkdir mem (some parent) (some name) s).map Prod.snd
  | .addChild parent name type =>
    match createNode mem name type s with
    | (none, s) => some s
    | (some child, s) => some (dirAddChild parent child s)

/-- The call is for a node of the file system, and a child is added to a
directory. -/
def VfsLegal (s : Vfs) : VfsOp → Prop
  | .mkdir parent _ => s.Reachable parent
  | .addChild parent _ _ => s.Reachable parent ∧ (s.nodes parent).type = .directory

/-- The same for runs of `vfs_mkdir` alone. -/
def MkdirLegal (s : Vfs) : VfsOp → Prop
  | .mkdir parent _ => s.Reachable parent
  | .addChild _ _ _ => False

end

end VortexOS.Fs
