import ComponentBuilder.Text.Basic

/-!
# Texts of the preview documents

The document runs in a frame of its own without access to the page around it.  It reports errors
before any user code is touched, and the user's script is carried as a string and compiled inside the
document, so that a fault of syntax shows as a message.  Markers stand where a value goes.
-/

namespace ComponentBuilder

namespace Preview

namespace Template

/-- The given lines, each with its line end. -/
def lines (texts : List String) : String :=
  String.join (texts.map (· ++ "\n"))

/-- The given lines with line ends between them. -/
def joined (texts : List String) : String :=
  "\n".intercalate texts

/-- The flags of the frame that the host must use. -/
def frameFlags : String :=
  "allow-scripts"

/-- The content security policy of a document. -/
def securityPolicy : String :=
  "; ".intercalate [
    "default-src 'none'",
    "script-src 'unsafe-inline' 'unsafe-eval' https://unpkg.com https://cdn.tailwindcss.com",
    "style-src 'unsafe-inline'",
    "img-src * data: blob:",
    "font-src * data:",
    "connect-src 'none'"]

/-- The type of the status messages that a document posts. -/
def statusType : String :=
  "preview-status"

/-- The beginning of a document, up to the scripts it loads. -/
def head : String :=
  lines [
    "<!DOCTYPE html>",
    "<html lang=\"en\">",
    "<head>",
    "  <meta charset=\"UTF-8\">",
    "  <meta name=\"viewport\" content=\"width=device-width, initial-scale=1.0\">",
    "  <meta http-equiv=\"Content-Security-Policy\" content=\"__CSP__\">",
    "  <style>",
    "    body \x7b margin: 0; padding: 0; background: transparent; font-family: -apple-system, BlinkMacSystemFont, \"Segoe UI\", Roboto, Arial, sans-serif; \x7d",
    "    #root \x7b min-height: 100vh; display: flex; flex-direction: column; \x7d",
    "    .preview-error \x7b margin: 16px; padding: 20px; color: #b91c1c; background: #fee2e2; border: 1px solid #fecaca; border-radius: 8px; font-family: ui-monospace, monospace; font-size: 12px; white-space: pre-wrap; word-break: break-word; \x7d",
    "    .preview-error strong \x7b display: block; margin-bottom: 8px; font-size: 13px; \x7d",
    "  </style>",
    "</head>",
    "<body>",
    "  <div id=\"root\"></div>",
    "  <script>",
    "    var __GENERATION = __GENERATION_VALUE__;",
    "    var __state = \"compiling\";",
    "    var __root = null;",
    "",
    "    function __report(state, message) \x7b",
    "      if (__state === \"compile_error\" || __state === \"runtime_error\") return;",
    "      __state = state;",
    "      try \x7b",
    "        window.parent.postMessage(\x7b type: \"__STATUS_TYPE__\", generation: __GENERATION, state: state, message: message || \"\" \x7d, \"*\");",
    "      \x7d catch (e) \x7b\x7d",
    "    \x7d",
    "",
    "    function __showError(title, err) \x7b",
    "      var message = (err && (err.message || String(err))) || \"Unknown error\";",
    "      var container = document.getElementById(\"root\");",
    "      if (__root) \x7b try \x7b __root.unmount(); \x7d catch (e) \x7b\x7d __root = null; \x7d",
    "      if (container) \x7b",
    "        var block = document.createElement(\"div\");",
    "        block.className = \"preview-error\";",
    "        var heading = document.createElement(\"strong\");",
    "        heading.textContent = title + \":\";",
    "        var body = document.createElement(\"div\");",
    "        body.textContent = message;",
    "        block.appendChild(heading);",
    "        block.appendChild(body);",
    "        container.replaceChildren(block);",
    "      \x7d",
    "      __report(title === \"Runtime Error\" ? \"runtime_error\" : \"compile_error\", message);",
    "    \x7d",
    "",
    "    window.onerror = function (msg, url, lineNo, columnNo, error) \x7b",
    "      console.error(\"Preview runtime error:\", msg, error);",
    "      __showError(\"Runtime Error\", error || \x7b message: String(msg) + (lineNo ? \" (line \" + lineNo + \")\" : \"\") \x7d);",
    "      return true;",
    "    \x7d;",
    "    window.addEventListener(\"unhandledrejection\", function (event) \x7b",
    "      __showError(\"Runtime Error\", event.reason);",
    "    \x7d);",
    "  </script>",
    "  <script src=\"https://unpkg.com/react@18/umd/react.development.js\" crossorigin></script>",
    "  <script src=\"https://unpkg.com/react-dom@18/umd/react-dom.development.js\" crossorigin></script>",
    "  <script src=\"https://unpkg.com/@babel/standalone/babel.min.js\"></script>",
    "  <script src=\"https://cdn.tailwindcss.com\"></script>"]

/-- The rest of a document, which compiles and mounts the component. -/
def runtime : String :=
  lines [
    "  <script>",
    "  (function () \x7b",
    "    if (typeof React === \"undefined\" || typeof ReactDOM === \"undefined\" || typeof Babel === \"undefined\") \x7b",
    "      __showError(\"Compilation Error\", \x7b message: \"Preview runtime (React/Babel) failed to load.\" \x7d);",
    "      return;",
    "    \x7d",
    "",
    "    var h = React.createElement;",
    "    var cx = function () \x7b return Array.prototype.filter.call(arguments, Boolean).join(\" \"); \x7d;",
    "    var __SHIMS = Object.create(null);",
    "__SHIM_TABLE__",
    "",
    "    function __shim(name) \x7b",
    "      if (name === \"*\") \x7b",
    "        return new Proxy(\x7b\x7d, \x7b get: function (t, key) \x7b return typeof key === \"string\" ? __shim(key) : undefined; \x7d \x7d);",
    "      \x7d",
    "      if (!__SHIMS[name]) __SHIMS[name] = __placeholder(name);",
    "      return __SHIMS[name];",
    "    \x7d",
    "",
    "    class __Boundary extends React.Component \x7b",
    "      constructor(props) \x7b super(props); this.state = \x7b failed: false \x7d; \x7d",
    "      static getDerivedStateFromError() \x7b return \x7b failed: true \x7d; \x7d",
    "      componentDidCatch(error) \x7b __showError(\"Runtime Error\", error); \x7d",
    "      render() \x7b return this.state.failed ? null : this.props.children; \x7d",
    "    \x7d",
    "",
    "    var __USER_SOURCE = __USER_SOURCE_JSON__;",
    "    var __BINDINGS = __BINDINGS_JSON__;",
    "",
    "    try \x7b",
    "      var prelude = __BINDINGS.map(function (pair) \x7b",
    "        return \"var \" + pair[0] + \" = __shim(\" + JSON.stringify(pair[1]) + \");\";",
    "      \x7d).join(\"\\n\");",
    "      var epilogue = \"\\nreturn (window.App !== undefined ? window.App : null)\"",
    "        + \" || (module.exports && (module.exports.default || (typeof module.exports === 'function' ? module.exports : null)))\"",
    "        + \" || (typeof App !== 'undefined' ? App : null);\";",
    "      // User code gets its own block so it may redeclare hooks or shimmed names.",
    "      var compiled = Babel.transform(prelude + \"\\n\x7b\\n\" + __USER_SOURCE + epilogue + \"\\n\x7d\", \x7b",
    "        filename: \"App.tsx\",",
    "        sourceType: \"script\",",
    "        presets: [[\"typescript\", \x7b isTSX: true, allExtensions: true \x7d], \"react\"],",
    "        parserOpts: \x7b allowReturnOutsideFunction: true \x7d",
    "      \x7d).code;",
    "",
    "      var module = \x7b exports: \x7b\x7d \x7d;",
    "      var run = new Function(",
    "        \"React\", \"ReactDOM\", \"__shim\", \"module\", \"exports\", \"require\",",
    "        \"useState\", \"useEffect\", \"useMemo\", \"useCallback\", \"useRef\", \"useContext\", \"useReducer\", \"useLayoutEffect\",",
    "        compiled",
    "      );",
    "      var exported = run(",
    "        React, ReactDOM, __shim, module, module.exports, function (name) \x7b return __shim(String(name)); \x7d,",
    "        React.useState, React.useEffect, React.useMemo, React.useCallback, React.useRef, React.useContext, React.useReducer, React.useLayoutEffect",
    "      );",
    "",
    "      var container = document.getElementById(\"root\");",
    "      var element;",
    "      if (!exported) \x7b",
    "        element = h(\"div\", \x7b className: \"p-8 text-red-500 font-bold\" \x7d, \"Error: no valid export found ('App' component or default export).\");",
    "      \x7d else if (React.isValidElement(exported)) \x7b",
    "        element = exported;",
    "      \x7d else if (typeof exported === \"function\" || (typeof exported === \"object\" && exported.$$typeof)) \x7b",
    "        element = h(exported);",
    "      \x7d else \x7b",
    "        element = h(\"div\", \x7b className: \"p-8 text-neutral-500\" \x7d,",
    "          h(\"h2\", \x7b className: \"text-lg font-bold text-red-500 mb-2\" \x7d, \"Mount Error\"),",
    "          h(\"p\", \x7b className: \"text-sm\" \x7d, \"Exported value is not a valid React component or element (got \" + typeof exported + \").\"));",
    "      \x7d",
    "",
    "      __root = ReactDOM.createRoot(container);",
    "      __root.render(h(__Boundary, null, element));",
    "      setTimeout(function () \x7b __report(exported ? \"mounted\" : \"compile_error\", exported ? \"\" : \"no valid export found\"); \x7d, 0);",
    "    \x7d catch (err) \x7b",
    "      console.error(\"Compilation/Mount Error:\", err);",
    "      __showError(\"Compilation Error\", err);",
    "    \x7d",
    "  \x7d)();",
    "  </script>",
    "</body>",
    "</html>"]

/-- A document that only shows a compilation error. -/
def fallback : String :=
  lines [
    "<!DOCTYPE html>",
    "<html lang=\"en\">",
    "<head>",
    "  <meta charset=\"UTF-8\">",
    "  <meta http-equiv=\"Content-Security-Policy\" content=\"__CSP__\">",
    "  <style>",
    "    .preview-error \x7b margin: 16px; padding: 20px; color: #b91c1c; background: #fee2e2; border: 1px solid #fecaca; border-radius: 8px; font-family: ui-monospace, monospace; font-size: 12px; white-space: pre-wrap; \x7d",
    "  </style>",
    "</head>",
    "<body>",
    "  <div id=\"root\"><div class=\"preview-error\"><strong>Compilation Error:</strong>",
    "__MESSAGE__</div></div>",
    "  <script>",
    "    try \x7b",
    "      window.parent.postMessage(\x7b type: \"__STATUS_TYPE__\", generation: __GENERATION_VALUE__, state: \"compile_error\", message: __MESSAGE_JSON__ \x7d, \"*\");",
    "    \x7d catch (e) \x7b\x7d",
    "  </script>",
    "</body>",
    "</html>"]

end Template

end Preview

end ComponentBuilder
