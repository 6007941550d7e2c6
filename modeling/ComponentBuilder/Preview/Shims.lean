import ComponentBuilder.Preview.Template
import ComponentBuilder.Vocabulary

/-!
# Stand-ins of the preview

Every name of the vocabulary has a small stand-in, given as the source of a script function that the
document can use without compiling it.  Names of the browser that components like to reuse are always
bound; other well-known globals never are.
-/

namespace ComponentBuilder

namespace Preview

namespace Shims

open Template

/-- The stand-in of `Container`. -/
def containerSource : String :=
  joined [
    "(\x7b children, className = \"\" \x7d) =>",
    "    h(\"div\", \x7b className: cx(\"max-w-7xl mx-auto px-4 sm:px-6 lg:px-8\", className) \x7d, children)"]

/-- The stand-in of `Grid`. -/
def gridSource : String :=
  joined [
    "(\x7b cols = 1, gap = 4, children, className = \"\" \x7d) =>",
    "    h(\"div\", \x7b className: cx(\"grid grid-cols-1 md:grid-cols-\" + cols, \"gap-\" + gap, className) \x7d, children)"]

/-- The stand-in of `Stack`. -/
def stackSource : String :=
  joined [
    "(\x7b gap = 4, children, className = \"\" \x7d) =>",
    "    h(\"div\", \x7b className: cx(\"flex flex-col\", \"gap-\" + gap, className) \x7d, children)"]

/-- The stand-in of `Inline`. -/
def inlineSource : String :=
  joined [
    "(\x7b gap = 4, children, className = \"\" \x7d) =>",
    "    h(\"div\", \x7b className: cx(\"flex flex-row flex-wrap\", \"gap-\" + gap, className) \x7d, children)"]

/-- The stand-in of `Section`. -/
def sectionSource : String :=
  joined [
    "(\x7b children, className = \"\" \x7d) =>",
    "    h(\"section\", \x7b className: cx(\"py-12\", className) \x7d, children)"]

/-- The stand-in of `Button`. -/
def buttonSource : String :=
  joined [
    "(\x7b variant = \"primary\", size = \"md\", className = \"\", children, ...props \x7d) => \x7b",
    "    const variants = \x7b",
    "      primary: \"bg-blue-600 text-white hover:bg-blue-700 shadow-md\",",
    "      secondary: \"bg-neutral-100 text-neutral-900 hover:bg-neutral-200\",",
    "      outline: \"border border-neutral-200 text-neutral-700 hover:bg-neutral-50\",",
    "      ghost: \"text-neutral-600 hover:bg-neutral-100\",",
    "      danger: \"bg-red-500 text-white hover:bg-red-600 shadow-md\"",
    "    \x7d;",
    "    const sizes = \x7b sm: \"px-3 py-1.5 text-xs\", md: \"px-4 py-2 text-sm\", lg: \"px-6 py-3 text-base\", icon: \"p-2 aspect-square\" \x7d;",
    "    return h(\"button\", \x7b ...props, className: cx(",
    "      \"inline-flex items-center justify-center rounded-lg font-medium transition-all disabled:opacity-50\",",
    "      variants[variant] || variants.primary, sizes[size] || sizes.md, className) \x7d, children);",
    "  \x7d"]

/-- The stand-in of `Card`. -/
def cardSource : String :=
  joined [
    "(\x7b variant = \"default\", padding = \"md\", className = \"\", children \x7d) => \x7b",
    "    const variants = \x7b",
    "      default: \"bg-white border border-neutral-200 shadow-sm\",",
    "      bordered: \"border border-neutral-200 bg-transparent\",",
    "      flat: \"bg-neutral-50\",",
    "      glass: \"backdrop-blur-md bg-white/10 border border-white/20 shadow-xl\",",
    "      neon: \"bg-black/40 border border-blue-500/30 backdrop-blur-xl\"",
    "    \x7d;",
    "    const paddings = \x7b none: \"\", sm: \"p-3\", md: \"p-5\", lg: \"p-8\" \x7d;",
    "    return h(\"div\", \x7b className: cx(\"rounded-xl overflow-hidden\",",
    "      variants[variant] || variants.default, paddings[padding] ?? paddings.md, className) \x7d, children);",
    "  \x7d"]

/-- The stand-in of `Input`. -/
def inputSource : String :=
  joined [
    "(\x7b variant = \"default\", error = false, className = \"\", ...props \x7d) => \x7b",
    "    const variants = \x7b",
    "      default: \"border border-neutral-200 focus:ring-2 focus:ring-blue-500\",",
    "      filled: \"bg-neutral-100 border-transparent focus:bg-white\"",
    "    \x7d;",
    "    return h(\"input\", \x7b ...props, className: cx(\"w-full px-3 py-2 rounded-lg outline-none text-sm\",",
    "      variants[variant] || variants.default, error && \"border-red-500\", className) \x7d);",
    "  \x7d"]

/-- The stand-in of `Textarea`. -/
def textareaSource : String :=
  joined [
    "(\x7b variant = \"default\", resize = true, className = \"\", ...props \x7d) => \x7b",
    "    const variants = \x7b",
    "      default: \"border border-neutral-200 focus:ring-2 focus:ring-blue-500\",",
    "      filled: \"bg-neutral-100 border-transparent focus:bg-white\"",
    "    \x7d;",
    "    return h(\"textarea\", \x7b ...props, className: cx(\"w-full px-3 py-2 rounded-lg outline-none text-sm min-h-[80px]\",",
    "      variants[variant] || variants.default, !resize && \"resize-none\", className) \x7d);",
    "  \x7d"]

/-- The stand-in of `Sidebar`. -/
def sidebarSource : String :=
  joined [
    "(\x7b children, className = \"\" \x7d) =>",
    "    h(\"aside\", \x7b className: cx(\"w-64 h-full border-r border-neutral-200 bg-neutral-50/50 flex flex-col\", className) \x7d, children)"]

/-- The stand-in of `Navbar`. -/
def navbarSource : String :=
  joined [
    "(\x7b variant = \"default\", children, className = \"\" \x7d) => \x7b",
    "    const variants = \x7b default: \"border-b border-neutral-200 bg-white\", transparent: \"bg-transparent\" \x7d;",
    "    return h(\"nav\", \x7b className: cx(\"h-16 flex items-center px-6\", variants[variant] || variants.default, className) \x7d, children);",
    "  \x7d"]

/-- The stand-in of `Table`. -/
def tableSource : String :=
  joined [
    "(\x7b headers, data, children, className = \"\" \x7d) => \x7b",
    "    const rows = Array.isArray(data) ? data : null;",
    "    const cells = (row) => Array.isArray(row) ? row : (row && typeof row === \"object\" ? Object.values(row) : [row]);",
    "    return h(\"div\", \x7b className: cx(\"overflow-hidden rounded-xl border border-neutral-200\", className) \x7d,",
    "      h(\"table\", \x7b className: \"w-full text-left border-collapse text-sm\" \x7d,",
    "        headers ? h(\"thead\", \x7b className: \"bg-neutral-50 border-b border-neutral-200\" \x7d,",
    "          h(\"tr\", null, headers.map((head, i) =>",
    "            h(\"th\", \x7b key: i, className: \"px-4 py-3 font-semibold text-neutral-600 uppercase text-[10px]\" \x7d, head)))) : null,",
    "        h(\"tbody\", null, rows ? rows.map((row, i) =>",
    "          h(\"tr\", \x7b key: i, className: \"border-b border-neutral-100 last:border-0\" \x7d,",
    "            cells(row).map((cell, j) => h(\"td\", \x7b key: j, className: \"px-4 py-3 text-neutral-700\" \x7d,",
    "              typeof cell === \"object\" && cell !== null && !React.isValidElement(cell) ? JSON.stringify(cell) : cell))))",
    "          : children)));",
    "  \x7d"]

/-- The stand-in of `Modal`. -/
def modalSource : String :=
  joined [
    "(\x7b isOpen, onClose, size = \"md\", children \x7d) => \x7b",
    "    if (!isOpen) return null;",
    "    const sizes = \x7b sm: \"max-w-sm\", md: \"max-w-md\", lg: \"max-w-lg\", xl: \"max-w-xl\", full: \"max-w-4xl\" \x7d;",
    "    return h(\"div\", \x7b className: \"fixed inset-0 z-50 flex items-center justify-center p-4 bg-black/50\" \x7d,",
    "      h(\"div\", \x7b className: cx(\"bg-white rounded-2xl shadow-2xl p-6 w-full relative\", sizes[size] || sizes.md) \x7d,",
    "        children,",
    "        h(\"button\", \x7b onClick: onClose, className: \"absolute top-4 right-4 text-neutral-400 hover:text-neutral-600\" \x7d, \"\\u00d7\")));",
    "  \x7d"]

/-- The stand-in of `Chart`. -/
def chartSource : String :=
  joined [
    "(\x7b type = \"bar\", data, title, height = \"md\", className = \"\" \x7d) => \x7b",
    "    const heights = \x7b sm: \"h-48\", md: \"h-64\", lg: \"h-96\" \x7d;",
    "    const points = (Array.isArray(data) ? data : [",
    "      \x7b label: \"Jan\", value: 45 \x7d, \x7b label: \"Feb\", value: 52 \x7d, \x7b label: \"Mar\", value: 38 \x7d,",
    "      \x7b label: \"Apr\", value: 65 \x7d, \x7b label: \"May\", value: 48 \x7d, \x7b label: \"Jun\", value: 59 \x7d",
    "    ]).map((d) => (d && typeof d === \"object\")",
    "      ? \x7b label: String(d.label || d.name || d.date || \"\"), value: Number(d.value ?? d.y ?? 0) || 0 \x7d",
    "      : \x7b label: \"\", value: Number(d) || 0 \x7d);",
    "    const max = Math.max(1, ...points.map((p) => p.value));",
    "    const last = Math.max(points.length - 1, 1);",
    "    const path = points.map((p, i) => (i / last) * 100 + \" \" + (100 - (p.value / max) * 100)).join(\" L \");",
    "    return h(\"div\", \x7b className: cx(\"w-full bg-white rounded-2xl border border-neutral-200 p-6 flex flex-col\",",
    "        heights[height] || heights.md, className) \x7d,",
    "      title ? h(\"h3\", \x7b className: \"text-sm font-bold text-neutral-900 mb-6\" \x7d, title) : null,",
    "      type === \"bar\"",
    "        ? h(\"div\", \x7b className: \"flex-1 flex items-end gap-3\" \x7d, points.map((p, i) =>",
    "            h(\"div\", \x7b key: i, title: p.label + \": \" + p.value,",
    "              className: \"flex-1 bg-gradient-to-t from-blue-600 to-blue-400 rounded-t-lg\",",
    "              style: \x7b height: (p.value / max) * 100 + \"%\" \x7d \x7d)))",
    "        : h(\"svg\", \x7b className: \"w-full flex-1\", viewBox: \"0 0 100 100\", preserveAspectRatio: \"none\" \x7d,",
    "            h(\"path\", \x7b d: \"M \" + path, fill: \"none\", stroke: \"#3b82f6\", strokeWidth: 3 \x7d)));",
    "  \x7d"]

/-- The stand-ins of components in the order of the table. -/
def components : List (String × String) :=
  [
    ("Container", containerSource),
    ("Grid", gridSource),
    ("Stack", stackSource),
    ("Inline", inlineSource),
    ("Section", sectionSource),
    ("Button", buttonSource),
    ("Card", cardSource),
    ("Input", inputSource),
    ("Textarea", textareaSource),
    ("Sidebar", sidebarSource),
    ("Navbar", navbarSource),
    ("Table", tableSource),
    ("Modal", modalSource),
    ("Chart", chartSource)]

/-- Names that share the stand-in of another. -/
def aliases : List (String × String) :=
  [("DataTable", "Table"), ("LineChart", "Chart"), ("BarChart", "Chart"), ("PieChart", "Chart")]

/-- The stand-in of every icon. -/
def iconSource : String :=
  joined [
    "() => h(\"span\", \x7b className: \"inline-block w-4 h-4 bg-neutral-200 rounded-sm flex-shrink-0\" \x7d)"]

/-- The stand-in of a name that has none. -/
def placeholderSource : String :=
  joined [
    "(name) => (props) => h(\"div\", \x7b",
    "    className: cx(\"border border-dashed border-neutral-300 p-4 rounded-xl text-neutral-400 text-xs\", props && props.className)",
    "  \x7d, h(\"div\", \x7b className: \"font-bold mb-1 opacity-50 uppercase tracking-widest text-[8px]\" \x7d, name), props && props.children)"]

/-- Names of the browser that components like to reuse. -/
def collidingNames : List String :=
  [
    "Audio", "History", "Image", "Location", "Map", "Navigation", "Notification", "Option",
    "Plugin", "Range", "Selection", "Set", "Text", "URL", "Node", "Document", "Element",
    "Comment", "Storage", "Screen"]

/-- Capitalised names that are never references to components. -/
def globalNames : List String :=
  [
    "React", "ReactDOM", "Math", "JSON", "Object", "Array", "String", "Number", "Boolean",
    "Date", "Promise", "Error", "TypeError", "RangeError", "SyntaxError", "Symbol", "RegExp",
    "Intl", "Infinity", "NaN", "BigInt", "Reflect", "Proxy", "WeakMap", "WeakSet",
    "Uint8Array", "Int32Array", "Float32Array", "Float64Array", "ArrayBuffer", "Blob",
    "FormData", "Headers", "AbortController", "IntersectionObserver", "ResizeObserver",
    "MutationObserver", "Event", "CustomEvent", "App"]

/-- The statement that gives a name a stand-in. -/
def entry (name source : String) : String :=
  "__SHIMS[\"" ++ name ++ "\"] = " ++ source ++ ";"

/-- The reference to the stand-in of another name. -/
def reference (name : String) : String :=
  "__SHIMS[\"" ++ name ++ "\"]"

/--
The script that fills the table.  Icons come first, so that the aliases of charts win over the icons
of the same name.
-/
def table : String :=
  joined
    (["const __icon = " ++ iconSource ++ ";"] ++
      Vocabulary.icons.map (fun icon =>
        entry icon "__icon" ++ " " ++ entry (icon ++ "Icon") "__icon") ++
      components.map (fun component => entry component.1 component.2) ++
      aliases.map (fun names => entry names.1 (reference names.2)) ++
      ["const __placeholder = " ++ placeholderSource ++ ";"])

end Shims

end Preview

end ComponentBuilder
